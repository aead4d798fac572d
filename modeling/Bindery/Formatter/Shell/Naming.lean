import Bindery.Formatter.Shell.Pattern
import Bindery.Formatter.Shell.Telling

/-! Commands of the shell's own that change names.

They set variables, mark them and remove them, set the arguments, take options out of
them, read lines into variables, and change the folder. -/
namespace Bindery.Formatter.Shell

/-! ### Variables -/

/-- A name and a value behind an equals sign, if there is one. -/
def splitAssignment (text : String) : String × Option String :=
  let cs := text.toList
  let name := cs.takeWhile (· ≠ '=')
  match cs.drop name.length with
  | _ :: value => (String.ofList name, some (String.ofList value))
  | [] => (text, none)

/-- Lines that tell about variables, sorted by their names. -/
def variableLines (before : String) (chosen : Variable → Bool) (s : State) : String :=
  let entries := (s.bindings.filter fun entry => chosen entry.2).mergeSort fun a b => a.1 ≤ b.1
  Text.join "" (entries.map fun (name, v) =>
    before ++ name ++ (v.value.elim "" fun value => "=" ++ inApostrophes value) ++ "\n")

/-- Mark variables, with values or without, or tell which are marked. -/
def markVariables (word : String) (isMarked : Variable → Bool)
    (mark : Variable → Variable) : Own := fun arguments => do
  let (options, arguments) ← LetterTable.read { letters := ['p'] } arguments
  if arguments.isEmpty ∨ !options.isEmpty then
    return ← ShellM.sayText (variableLines (word ++ " ") isMarked (← get))
  arguments.forM fun argument => do
    let (name, value?) := splitAssignment argument
    let s ← get
    match value?, s.bindings.lookup name with
    | none, some v => modify fun s => { s with bindings := s.bindings.put name (mark v) }
    | none, none => ShellM.changeVariable name mark
    | some value, _ =>
      ShellM.changeVariable name fun v => mark { v with value := some value }
  return 0

/-- Let programs see variables. -/
def exportVariables : Own :=
  markVariables "export" (·.isExported) ({ · with isExported := true })

/-- Let variables stay as they are. -/
def keepVariables : Own :=
  markVariables "readonly" (·.isReadOnly) ({ · with isReadOnly := true })

/-- Remember what a variable is before it becomes local. -/
def ShellM.saveVariable (name : String) : ShellM Unit :=
  modify fun s => { s with
    locals :=
      match s.locals with
      | frame :: rest => ((name, s.bindings.lookup name) :: frame) :: rest
      | [] => [] }

def localVariables : Own := fun arguments => do
  if (← get).locals.isEmpty then ShellM.fail "not in a function"
  arguments.forM fun argument => do
    let (name, value?) := splitAssignment argument
    unless isName name do ShellM.fail (name ++ ": bad variable name")
    ShellM.saveVariable name
    match value? with
    | some value => ShellM.setVariable name value
    | none => pure ()
  return 0

/-- Let a variable be what it was. -/
def restoreVariable (name : String) (before : Option Variable) : ShellM Unit :=
  modify fun s => { s with
    bindings :=
      match before with
      | some v => s.bindings.put name v
      | none => s.bindings.filter (·.1 ≠ name) }

def removeNames : Own := fun arguments => do
  let (options, names) ← LetterTable.read { letters := ['v', 'f'] } arguments
  names.forM fun name => do
    if options.getLast?.any (·.1 = 'f') then
      modify fun s => { s with functions := s.functions.filter (·.1 ≠ name) }
    else
      ShellM.changeVariable name id
      modify fun s => { s with bindings := s.bindings.filter (·.1 ≠ name) }
  return 0

/-! ### Arguments -/

def ShellM.setArguments (arguments : List String) : ShellM Unit :=
  modify fun s => { s with arguments, optionIndex := 1, optionPlace := none }

/-- Turn switches and set the arguments, or tell about all variables. -/
def setSwitches : Own := fun arguments => do
  if arguments.isEmpty then
    return ← ShellM.sayText (variableLines "" (·.value.isSome) (← get))
  let (_, isMarked, rest) ← turnSwitches false arguments.length arguments
  if isMarked ∨ !rest.isEmpty then ShellM.setArguments rest
  return 0

/-- A number that an argument has to be. -/
def countArgument (text : String) : ShellM Nat :=
  match count? text with
  | some n => return n
  | none => ShellM.fail ("Illegal number: " ++ text)

def dropArguments : Own := fun arguments => do
  let count ← arguments.head?.elim (pure 1) countArgument
  let s ← get
  if s.arguments.length < count then ShellM.fail "can't shift that many"
  ShellM.setArguments (s.arguments.drop count)
  return 0

/-- What comes of looking for the next option. -/
structure NextOption where
  /-- The letter, or a question mark or a colon if something is wrong. -/
  letter : Char := '?'
  value : Option String := none
  complaint : Option String := none
  index : Nat
  place : Option Nat := none
  isDone : Bool := false

/-- What to do with a letter: whether it is known, and whether it has a value. -/
def letterIn? (c : Char) : List Char → Option Bool
  | [] => none
  | d :: ':' :: rest => if d = c then some true else letterIn? c rest
  | d :: rest => if d = c then some false else letterIn? c rest

def nextOption (letters : String) (arguments : List String) (index : Nat) (place : Option Nat) :
    NextOption :=
  let isQuiet : Bool := letters.toList.head? = some ':'
  let behind (n : Nat) (cs : List Char) : Option Nat :=
    if cs.isEmpty then none else some ((arguments.getD (n - 2) "").length - cs.length)
  let read (c : Char) (more : List Char) (index : Nat) : NextOption :=
    let wrong (letter : Char) (complaint : String) (place : Option Nat) : NextOption :=
      if isQuiet then { letter, value := some (String.singleton c), index, place }
      else { complaint := some complaint, index, place }
    match letterIn? c letters.toList with
    | none => wrong '?' ("Illegal option -" ++ String.singleton c) (behind index more)
    | some false => { letter := c, value := some "", index, place := behind index more }
    | some true =>
      match more, arguments[index - 1]? with
      | [], none =>
        wrong ':' ("No arg for -" ++ String.singleton c ++ " option") none
      | [], some value => { letter := c, value := some value, index := index + 1 }
      | more, _ => { letter := c, value := some (String.ofList more), index }
  let left : List Char :=
    match place with
    | some n => if 1 < index then (arguments.getD (index - 2) "").toList.drop n else []
    | none => []
  match left with
  | c :: more => read c more index
  | [] =>
    match (arguments[index - 1]?).map (·.toList) with
    | some ['-', '-'] => { index := index + 1, isDone := true }
    | some ('-' :: c :: more) => read c more (index + 1)
    | _ => { index, isDone := true }

/-- Put the next option into a variable. -/
def takeOption : Own := fun arguments => do
  match arguments with
  | letters :: name :: rest =>
    let s ← get
    let isOwn : Bool := !rest.isEmpty
    let all := if isOwn then rest else s.arguments
    let isOver : Bool := all.length + 1 < s.optionIndex
    let found := nextOption letters all (if isOver then 1 else s.optionIndex)
      (if isOver then none else s.optionPlace)
    match found.value, found.complaint with
    | some value, _ => ShellM.setVariable "OPTARG" value
    | none, some text => do
      let _ ← ShellM.write 2 (text ++ "\n").toList
      modify fun s => { s with bindings := s.bindings.filter (·.1 ≠ "OPTARG") }
    | none, none => pure ()
    ShellM.setVariable "OPTIND" (toString found.index)
    ShellM.setVariable name (String.singleton found.letter)
    modify fun s => { s with optionIndex := found.index, optionPlace := found.place }
    return if found.isDone then 1 else 0
  | _ => ShellM.fail "Usage: getopts optstring var [arg...]"

/-! ### Reading -/

/-- A line behind the characters that are given in reverse, each character with whether a
backslash stood in front of it; what follows the line, and whether it has an end. Lines
that a backslash joins are one. -/
def readLineChars (plain : Bool) (before : List PatternChar) :
    Octets → List PatternChar × Octets × Bool
  | [] => (before.reverse, [], false)
  | '\n' :: rest => (before.reverse, rest, true)
  | '\x00' :: rest => readLineChars plain before rest
  | '\\' :: c :: rest =>
    if plain then readLineChars plain (('\\', false) :: before) (c :: rest)
    else if c = '\n' then readLineChars plain before rest
    else readLineChars plain ((c, true) :: before) rest
  | c :: rest =>
    if c = '\\' ∧ !plain then (before.reverse, [], false)
    else readLineChars plain ((c, false) :: before) rest
termination_by text => text.length

/-- How a line is parted into fields. -/
structure LineParting where
  separators : List Char

namespace LineParting

/-- Whether a character parts fields. -/
def parts (p : LineParting) (c : PatternChar) : Bool := !c.2 && p.separators.contains c.1

/-- Whether a character is white space that parts fields. -/
def isBlank (p : LineParting) (c : PatternChar) : Bool :=
  p.parts c && c.1 ∈ [' ', '\t', '\n']

/-- A line without the white space at its end. Characters behind a backslash do not end
white space. -/
def dropBlankEnd (p : LineParting) (line : List PatternChar) : List PatternChar :=
  let ending := line.reverse.takeWhile fun c => c.2 || p.isBlank c
  line.take (line.length - ending.length) ++ ending.reverse.takeWhile (!p.isBlank ·)

/-- What the last name gets: all that is left, but a single field without its separator. -/
def remainder (p : LineParting) (line : List PatternChar) : List PatternChar :=
  let line := p.dropBlankEnd line
  match line.reverse with
  | c :: before =>
    let field := (before.dropWhile p.isBlank).reverse
    if p.parts c && !field.any p.parts then field else line
  | [] => []

def fields (p : LineParting) : Nat → List PatternChar → List String
  | 0, _ => []
  | n + 1, line =>
    let line := line.dropWhile p.isBlank
    let text (cs : List PatternChar) : String := String.ofList (cs.map (·.1))
    if n = 0 then [text (p.remainder line)]
    else
      let field := line.takeWhile (!p.parts ·)
      let rest := (line.drop field.length).dropWhile p.isBlank
      let rest :=
        match rest with
        | c :: more => if p.parts c then more else rest
        | [] => []
      text field :: p.fields n rest

end LineParting

/-- Read a line into variables. -/
def readVariables : Own := fun arguments => do
  let (options, names) ← LetterTable.read { letters := ['r'], valued := ['p'] } arguments
  if names.isEmpty then ShellM.fail "arg count"
  let s ← get
  let source? : Option (Stream × Octets) :=
    (s.stream? 0).bind fun stream =>
      match s.machine.readable stream with
      | .ok source => some (stream, source.content)
      | .error _ => none
  let (line, ends) ←
    match source? with
    | none => pure ([], false)
    | some (stream, text) =>
      let (line, rest, ends) := readLineChars (options.any (·.1 = 'r')) [] text
      modify fun s => { s with machine := s.machine.leave rest stream }
      pure (line, ends)
  let fields := LineParting.fields ⟨s.separators⟩ names.length line
  (names.zip fields).forM fun (name, text) => ShellM.setVariable name text
  return if ends then 0 else 1

/-! ### Folders -/

/-- A folder from another one, with its dots followed in the text. -/
def followDots (before : List String) (path : String) : List String :=
  (Text.pieces '/' path).foldl (fun names piece =>
    if Files.isIdle piece then names
    else if piece = ".." then names.dropLast
    else names ++ [piece]) before

/-- Whether a path starts at the root or with dots that are a folder. -/
def isFixed (path : String) : Bool :=
  Files.isAbsolute path || (Text.pieces '/' path).head?.any (· ∈ [".", ".."])

def changeFolder : Own := fun arguments => do
  let (_, arguments) ← LetterTable.read { letters := ['L', 'P'] } arguments
  let s ← get
  let wanted :=
    match arguments.head? with
    | none => (s.valueOf? "HOME").getD ""
    | some "-" => (s.valueOf? "OLDPWD").getD ""
    | some path => path
  let dest := if wanted = "" then "." else wanted
  let place (path : String) : List String :=
    followDots (if Files.isAbsolute path then [] else s.folder) path
  let isThere (path : String) : Bool := (s.machine.tree.item? (place path)).any (·.isFolder)
  let searched : Option String :=
    if wanted ≠ "" ∧ isFixed wanted then none
    else ((s.valueOf? "CDPATH").elim [] (candidates · dest)).find? isThere
  let path := searched.getD dest
  unless isThere path do ShellM.fail ("can't cd to " ++ wanted)
  let directory := "/" ++ Text.join "/" (place path)
  ShellM.changeVariable "OLDPWD" fun v =>
    { v with value := some s.directory, isExported := true }
  ShellM.changeVariable "PWD" fun v => { v with value := some directory, isExported := true }
  modify fun s => { s with directory }
  if arguments.head? = some "-" ∨ searched.any (· ≠ dest) then ShellM.sayText (directory ++ "\n")
  else return 0

end Bindery.Formatter.Shell
