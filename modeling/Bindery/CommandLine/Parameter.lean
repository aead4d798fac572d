import Bindery.Text.Pieces

/-! Reading the arguments of a command.

A level is a command with its parameters and the commands below it. Arguments are read
from left to right: a parameter by its name or its letter, several letters together, a
value behind `=` or in the next argument; then the name of a command ends the level and
hands it what follows. Everything else is wrong usage. -/
namespace Bindery.CommandLine

/-- A parameter of a command. -/
structure Parameter where
  name : String
  letter : Option Char := none
  /-- The values that it can have, or none if it is only a switch. -/
  accepts : Option (String → Bool) := none
  repeatable : Bool := false

/-- What ends the reading before there is a request. -/
inductive Stop where
  | usage
  | help
  | version
deriving DecidableEq, Repr, Inhabited

/-- Parameters that were given, each with its value; a switch has the empty one. -/
abbrev Settings : Type := List (String × String)

/-- A command. -/
structure Level where
  parameters : List Parameter
  /-- The commands below this one. -/
  commands : List String := []
  /-- Whether it tells its version. -/
  versioned : Bool := false

/-- What was given to a level, and the command that came then with its arguments. -/
structure Reading where
  settings : Settings := []
  command : Option (String × List String) := none
deriving DecidableEq, Repr, Inhabited

/-- Whether an argument cannot be the value of the parameter before it. A dash alone is a
value. -/
def looksLikeParameter (argument : String) : Bool :=
  argument.toList.head? = some '-' && argument ≠ "-"

/-- One more setting, if the parameter can have the value and was not given before. -/
def Settings.add (s : Settings) (p : Parameter) (value : String) : Except Stop Settings :=
  let accepted := match p.accepts with
    | some accepts => accepts value
    | none => value = ""
  if !accepted then .error .usage
  else if !p.repeatable && s.any (·.1 = p.name) then .error .usage
  else .ok (s ++ [(p.name, value)])

namespace Level

def named? (l : Level) (name : String) : Option Parameter :=
  l.parameters.find? fun p => p.name = name

def lettered? (l : Level) (letter : Char) : Option Parameter :=
  l.parameters.find? fun p => p.letter = some letter

/-- Read letters that stand together. A parameter whose value is still to come is handed
back. -/
def readLetters (l : Level) : Settings → List Char → Except Stop (Settings × Option Parameter)
  | s, [] => .ok (s, none)
  | s, c :: rest =>
    if c = 'h' then .error .help
    else if c = 'V' ∧ l.versioned then .error .version
    else
      match l.lettered? c with
      | none => .error .usage
      | some p =>
        if p.accepts.isNone then do l.readLetters (← s.add p "") rest
        else
          match rest with
          | [] => .ok (s, some p)
          | '=' :: value => do return (← s.add p (String.ofList value), none)
          | value => do return (← s.add p (String.ofList value), none)

/-- Read a name, with its value if there is one behind `=`. A parameter whose value is
still to come is handed back. -/
def readName (l : Level) (s : Settings) (text : List Char) :
    Except Stop (Settings × Option Parameter) := do
  let name := String.ofList (text.takeWhile (· ≠ '='))
  let value := (text.dropWhile (· ≠ '=')).tail
  let hasValue : Bool := '=' ∈ text
  if name = "help" ∧ ¬hasValue then throw .help
  if name = "version" ∧ l.versioned ∧ ¬hasValue then throw .version
  match l.named? name with
  | none => throw .usage
  | some p =>
    if p.accepts.isNone then
      if hasValue then throw .usage else return (← s.add p "", none)
    else if hasValue then return (← s.add p (String.ofList value), none)
    else return (s, some p)

def read (l : Level) : Settings → List String → Except Stop Reading
  | settings, [] => .ok { settings }
  | settings, argument :: rest => do
    match argument.toList with
    | ['-', '-'] => if rest.isEmpty then return { settings } else throw .usage
    | '-' :: c :: more =>
      let (settings, open?) ←
        if c = '-' then l.readName settings more else l.readLetters settings (c :: more)
      match open?, rest with
      | none, rest => read l settings rest
      | some _, [] => throw .usage
      | some p, value :: rest =>
        if looksLikeParameter value then throw .usage
        else read l (← settings.add p value) rest
    | _ =>
      if argument ∈ l.commands then return { settings, command := some (argument, rest) }
      else throw .usage

end Level

end Bindery.CommandLine
