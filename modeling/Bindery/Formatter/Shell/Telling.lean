import Bindery.Formatter.Shell.Condition
import Bindery.Formatter.Shell.Lookup
import Bindery.Formatter.Shell.Printing
import Bindery.Formatter.Shell.Switches

/-! Commands of the shell's own that tell something.

They write to the output: their arguments, what they find out about names, files and the
state of the shell. Their status says whether they could. -/
namespace Bindery.Formatter.Shell

/-- A command of the shell's own: it does something with arguments and has a status. -/
abbrev Own : Type := List String → ShellM Nat

/-- Repeat the arguments. -/
def tellArguments : Own := fun arguments => ShellM.say (echoed arguments)

/-- Print arguments by a format. -/
def tellByFormat : Own := fun arguments => do
  match ← withoutOptions arguments with
  | [] => ShellM.fail "usage: printf format [arg ...]"
  | format :: arguments =>
    let p := printed format arguments
    p.doubts.reverse.forM ShellM.complain
    let finish : ShellM Nat := do
      let status ← ShellM.say p.out.reverse.flatten
      return if p.doubts.isEmpty then status else 1
    match p.fault with
    | none => finish
    | some text => do
      let _ ← ShellM.write 1 p.out.reverse.flatten
      ShellM.fail text

/-! ### Conditions -/

/-- What a path leads to. -/
def State.item? (s : State) (path : String) : Option Files.Item :=
  match s.tree.locate path (Text.pieces '/' path) with
  | .ok spot => spot.item
  | .error _ => none

/-- Whether something that can be asked about a file holds. -/
def State.holdsOfFile (s : State) (question : Char) (path : String) : Bool :=
  match s.item? path with
  | none => false
  | some item =>
    let isProgram : Bool := programAt s.tree path matches .program _
    match question, item with
    | 'e', _ | 'r', _ | 'w', _ | 'O', _ | 'G', _ => true
    | 'f', .file _ | 'd', .folder _ | 'c', .sink | 'x', .folder _ | 's', .folder _ => true
    | 's', .file text => text ≠ "" || isProgram
    | 'x', .file _ => isProgram
    | _, _ => false

def State.isSamePlace (s : State) (a b : String) : Bool :=
  match s.tree.locate a (Text.pieces '/' a), s.tree.locate b (Text.pieces '/' b) with
  | .ok ⟨a, some _⟩, .ok ⟨b, some _⟩ => a = b
  | _, _ => false

/-- Tell by the status whether a condition holds. -/
def tellCondition (inBrackets : Bool) : Own := fun arguments => do
  let s ← get
  if inBrackets ∧ arguments.getLast? ≠ some "]" then ShellM.fail "missing ]"
  let arguments := if inBrackets then arguments.dropLast else arguments
  match conditionHolds ⟨s.holdsOfFile, s.isSamePlace⟩ false arguments with
  | .ok holds => return if holds then 0 else 1
  | .error fault => ShellM.fail fault.message

/-! ### Names -/

/-- Tell what names stand for. -/
def tellMeanings : Own := fun names => do
  return (← names.mapM (describe true none)).foldl max 0

/-- Tell which programs were found, or look for some. -/
def tellFound : Own := fun arguments => do
  let (options, names) ← LetterTable.read { letters := ['r'] } arguments
  if !options.isEmpty then
    modify fun s => { s with found := [] }
    return 0
  let s ← get
  if names.isEmpty then
    return ← ShellM.sayText (Text.join "" (s.found.map fun entry => entry.2 ++ "\n"))
  let statuses ← names.mapM fun name => do
    match s.meaning true s.search name with
    | .program path _ =>
      remember name path
      return 0
    | .function _ | .own _ => return 0
    | .denied | .missing =>
      ShellM.complain (name ++ ": not found")
      return 1
  return if statuses.all (· = 0) then 0 else 1

def aliasLine (name text : String) : String := name ++ "=" ++ inApostrophes text ++ "\n"

/-- Tell about aliases, or make some. -/
def tellAliases : Own := fun arguments => do
  if arguments.isEmpty then
    return ← ShellM.sayText (Text.join "" ((← get).aliases.map fun entry => aliasLine entry.1 entry.2))
  let statuses ← arguments.mapM fun argument => do
    let cs := argument.toList
    let name := cs.take 1 ++ (cs.drop 1).takeWhile (· ≠ '=')
    match cs.drop name.length with
    | _ :: text =>
      modify fun s => { s with
        aliases := s.aliases.put (String.ofList name) (String.ofList text) }
      return 0
    | [] =>
      match (← get).aliases.lookup argument with
      | some text => ShellM.sayText (aliasLine argument text)
      | none =>
        let _ ← ShellM.write 2 ("alias: " ++ argument ++ " not found\n").toList
        return 1
  return if statuses.all (· = 0) then 0 else 1

def forgetAliases : Own := fun arguments => do
  let (options, names) ← LetterTable.read { letters := ['a'] } arguments
  if !options.isEmpty then
    modify fun s => { s with aliases := [] }
    return 0
  let statuses ← names.mapM fun name => do
    let s ← get
    if (s.aliases.lookup name).isNone then
      let _ ← ShellM.write 2 ("unalias: " ++ name ++ " not found\n").toList
      return 1
    modify fun s => { s with aliases := s.aliases.filter (·.1 ≠ name) }
    return 0
  return if statuses.all (· = 0) then 0 else 1

/-! ### The state of the shell -/

/-- Tell where the shell is. -/
def tellFolder : Own := fun arguments => do
  let _ ← LetterTable.read { letters := ['L', 'P'] } arguments
  ShellM.sayText ((← get).directory ++ "\n")

/-- Tell how long the shell has been busy. -/
def tellTimes : Own := fun _ =>
  let line := "0m0.000000s 0m0.000000s\n"
  ShellM.sayText (line ++ line)

/-- Tell about limits: there are none. -/
def tellLimit : Own := fun _ => ShellM.sayText "unlimited\n"

/-- A number in octal digits, with zeros in front. -/
def inOctal (n : Nat) : String :=
  let digits := Nat.toDigits 8 n
  String.ofList (List.replicate (4 - digits.length) '0' ++ digits)

/-- What a mask leaves to the owner, the group and the others. -/
def maskLetters (mask : Nat) : String :=
  let letters (shift : Nat) : String :=
    String.ofList ([('r', 4), ('w', 2), ('x', 1)].filterMap fun (c, bit) =>
      if mask / Nat.pow 8 shift / bit % 2 = 0 then some c else none)
  "u=" ++ letters 2 ++ ",g=" ++ letters 1 ++ ",o=" ++ letters 0

/-- A mask after one clause of a change, if it is one. -/
def changedMask? (mask : Nat) (clause : List Char) : Option Nat := do
  let whoCs := clause.takeWhile (· ∈ ['u', 'g', 'o', 'a'])
  let who := if whoCs.isEmpty ∨ 'a' ∈ whoCs then ['u', 'g', 'o'] else whoCs
  let (sign, letters) ←
    match clause.drop whoCs.length with
    | sign :: letters => if sign ∈ ['=', '+', '-'] then some (sign, letters) else none
    | [] => none
  guard (letters.all (· ∈ ['r', 'w', 'x', 'X', 's', 't']))
  let bits := (if 'r' ∈ letters then 4 else 0) + (if 'w' ∈ letters then 2 else 0) +
    (if 'x' ∈ letters ∨ 'X' ∈ letters then 1 else 0)
  let change (shift : Nat) (mask : Nat) : Nat :=
    let unit := Nat.pow 8 shift
    let allowed := 7 - mask / unit % 8
    let allowed' :=
      match sign with
      | '=' => bits
      | '+' => allowed ||| bits
      | _ => allowed &&& (7 - bits)
    mask - (7 - allowed) * unit + (7 - allowed') * unit
  let apply (c : Char) (shift mask : Nat) : Nat := if c ∈ who then change shift mask else mask
  return apply 'o' 0 (apply 'g' 1 (apply 'u' 2 mask))

/-- Tell or change what new files do not allow. -/
def tellMask : Own := fun arguments => do
  let (options, arguments) ← LetterTable.read { letters := ['S'] } arguments
  let mask := (← get).mask
  match arguments with
  | [] => ShellM.sayText ((if options.isEmpty then inOctal mask else maskLetters mask) ++ "\n")
  | text :: _ =>
    if text.toList.head?.any Char.isDigit then
      unless text.toList.all fun c => '0' ≤ c && c ≤ '7' do
        ShellM.fail ("Illegal number: " ++ text)
      modify fun s => { s with mask := (digitsIn 8 text.toList).1 % 512 }
    else
      match (Text.pieces ',' text).foldlM (fun mask clause =>
        changedMask? mask clause.toList) mask with
      | some mask => modify fun s => { s with mask }
      | none => ShellM.fail ("Illegal mode: " ++ text)
    return 0

end Bindery.Formatter.Shell
