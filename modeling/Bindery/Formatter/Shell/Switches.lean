import Bindery.Formatter.Shell.State

/-! Options of the shell and of its own commands.

The options of the shell are switches: most have a letter, all have a name, and they are
turned on behind a minus and off behind a plus. The commands of the shell have options of
letters too, some of which take a value. -/
namespace Bindery.Formatter.Shell

/-! ### Letters of commands -/

/-- Options of a command: the letters that it knows, and those of them with a value. -/
structure LetterTable where
  letters : List Char := []
  valued : List Char := []

/-- The letters in an argument, and the arguments behind it. -/
def LetterTable.lettersIn (table : LetterTable) :
    List Char → List String → Except String (List (Char × String) × List String)
  | [], rest => .ok ([], rest)
  | c :: more, rest =>
    if table.valued.contains c then
      match more, rest with
      | [], [] => .error ("No arg for -" ++ String.singleton c ++ " option")
      | [], value :: rest => .ok ([(c, value)], rest)
      | more, rest => .ok ([(c, String.ofList more)], rest)
    else if table.letters.contains c then do
      let (found, rest) ← table.lettersIn more rest
      return ((c, "") :: found, rest)
    else .error ("Illegal option -" ++ String.singleton c)

/-- The options that arguments start with, at most so many times, and the arguments behind
them. -/
def LetterTable.readWithin (table : LetterTable) :
    Nat → List String → Except String (List (Char × String) × List String)
  | 0, arguments => .ok ([], arguments)
  | n + 1, arguments =>
    match arguments with
    | "--" :: rest => .ok ([], rest)
    | argument :: rest =>
      match argument.toList with
      | '-' :: c :: more => do
        let (found, rest) ← table.lettersIn (c :: more) rest
        let (below, rest) ← table.readWithin n rest
        return (found ++ below, rest)
      | _ => .ok ([], arguments)
    | [] => .ok ([], [])

/-- The options that arguments start with, and the arguments behind them. -/
def LetterTable.read (table : LetterTable) (arguments : List String) :
    ShellM (List (Char × String) × List String) :=
  match table.readWithin arguments.length arguments with
  | .ok found => return found
  | .error text => ShellM.fail text

/-- Arguments without the options of a command that has none. -/
def withoutOptions (arguments : List String) : ShellM (List String) := do
  return (← LetterTable.read {} arguments).2

/-! ### Switches -/

def switchNames : List (String × Option Char) :=
  [("errexit", some 'e'), ("noglob", some 'f'), ("ignoreeof", some 'I'),
    ("interactive", some 'i'), ("monitor", some 'm'), ("noexec", some 'n'), ("stdin", some 's'),
    ("xtrace", some 'x'), ("verbose", some 'v'), ("vi", some 'V'), ("emacs", some 'E'),
    ("noclobber", some 'C'), ("allexport", some 'a'), ("notify", some 'b'),
    ("nounset", some 'u'), ("privileged", some 'p'), ("nolog", none), ("debug", none)]

def turn (on : Bool) (letter : Char) (switches : List Char) : List Char :=
  if on then if switches.contains letter then switches else letter :: switches
  else switches.filter (· ≠ letter)

/-- The letters of the switches that are on, the last of the table first. -/
def State.letters (s : State) : String :=
  String.ofList ((switchNames.filterMap (·.2)).filter s.isOn).reverse

/-- What is told about the switches, as a table or as commands. The flag tells whether those
without a letter are on. -/
def State.switchListing (s : State) (othersOn asTable : Bool) : String :=
  let isOn : Option Char → Bool := fun letter? => letter?.elim othersOn s.isOn
  if asTable then
    "Current option settings\n" ++ Text.join "" (switchNames.map fun (name, letter?) =>
      name ++ String.ofList (List.replicate (16 - name.length) ' ') ++
        (if isOn letter? then "on\n" else "off\n"))
  else
    Text.join "" (switchNames.map fun (name, letter?) =>
      "set " ++ (if isOn letter? then "-o " else "+o ") ++ name ++ "\n")

def turnLetter (on : Bool) (letter : Char) : ShellM Unit := do
  unless switchNames.any (·.2 = some letter) do
    ShellM.fail ("Illegal option -" ++ String.singleton letter)
  modify fun s => { s with switches := turn on letter s.switches }

/-- Turn a switch with a certain name on or off; without a name, list all. While a shell is
starting, all of them are listed as on. -/
def turnName (starting on : Bool) (name? : Option String) : ShellM Unit := do
  match name? with
  | none =>
    let s ← get
    let listed := if starting then { s with switches := switchNames.filterMap (·.2) } else s
    let _ ← ShellM.write 1 (listed.switchListing starting on).toList
  | some name =>
    match switchNames.lookup name with
    | none => ShellM.fail ("Illegal option -o " ++ name)
    | some (some letter) => modify fun s => { s with switches := turn on letter s.switches }
    | some none => pure ()

/-- What is left of arguments when switches have been turned, and whether there was a mark
behind them. `c` and `l` mean something where a shell is started; the first of them is
remembered. -/
def turnSwitches (starting : Bool) :
    Nat → List String → ShellM (Bool × Bool × List String)
  | 0, arguments => return (false, false, arguments)
  | n + 1, arguments => do
    match arguments with
    | [] => return (false, false, [])
    | argument :: rest =>
      match argument.toList with
      | sign :: letters =>
        if sign = '-' ∧ (letters = [] ∨ letters = ['-']) then
          if letters = [] ∧ !starting then
            modify fun s => { s with switches := turn false 'x' (turn false 'v' s.switches) }
            return (false, !rest.isEmpty, rest)
          return (false, true, rest)
        else if sign ≠ '-' ∧ sign ≠ '+' then return (false, false, arguments)
        else
          let (isText, rest) ← letters.foldlM (fun (isText, rest) letter => do
            if starting ∧ letter = 'c' then return (true, rest)
            if starting ∧ letter = 'l' then return (isText, rest)
            if letter = 'o' then
              turnName starting (sign = '-') rest.head?
              return (isText, rest.tail)
            turnLetter (sign = '-') letter
            return (isText, rest)) (false, rest)
          let (isText', isMarked, rest) ← turnSwitches starting n rest
          return (isText || isText', isMarked, rest)
      | [] => return (false, false, arguments)

end Bindery.Formatter.Shell
