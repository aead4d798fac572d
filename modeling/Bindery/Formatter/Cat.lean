import Bindery.Formatter.Options
import Bindery.Formatter.Quoting

/-! The program that copies its input.

It copies what its operands name, one after the other. On the way it can number lines,
mark their ends, drop repeated empty lines and make hidden characters visible; all of
that goes on from one operand to the next as if they were one text. -/
namespace Bindery.Formatter

namespace Cat

/-- What is done to the lines on the way. -/
structure Display where
  numbers : Bool := false
  /-- Only lines that hold something get a number. -/
  filledOnly : Bool := false
  ends : Bool := false
  squeezed : Bool := false
  tabs : Bool := false
  hidden : Bool := false
deriving DecidableEq, Inhabited

/-- Where in the text the copy is. -/
structure State where
  /-- How many empty lines stand right before this place, if a line starts here. -/
  empties : Option Nat := some 0
  lastNumber : Nat := 0
  /-- A carriage return waits for what follows it. -/
  held : Bool := false
deriving DecidableEq, Inhabited

/-- A number as it stands in front of a line. -/
def lineNumber (n : Nat) : Octets :=
  let digits := (toString n).toList
  List.replicate (6 - digits.length) ' ' ++ digits ++ ['\t']

/-- A character made visible, the ones above 127 behind `M-`. -/
def visible (tabs : Bool) (c : Char) : Octets :=
  let low (n : Nat) : Octets :=
    if n < 32 then ['^', Char.ofNat (n + 64)]
    else if n = 127 then ['^', '?']
    else [Char.ofNat n]
  if c = '\t' ∧ !tabs then ['\t']
  else if c.toNat < 128 then low c.toNat
  else 'M' :: '-' :: low (c.toNat - 128)

/-- Go on to the next number. -/
def State.number (s : State) : State × Octets :=
  ({ s with lastNumber := s.lastNumber + 1 }, lineNumber (s.lastNumber + 1))

/-- Copy the end of a line. -/
def Display.lineEnd (d : Display) (s : State) : State × Octets :=
  let ending : Octets := (if s.held then ['^', 'M'] else []) ++ (if d.ends then ['$'] else [])
  match s.empties with
  | none => ({ s with empties := some 0, held := false }, ending ++ ['\n'])
  | some n =>
    if d.squeezed ∧ 1 ≤ n then (s, [])
    else
      let (s, number) := if d.numbers && !d.filledOnly then s.number else (s, [])
      ({ s with empties := some (n + 1) }, number ++ ending ++ ['\n'])

/-- Copy a character that does not end a line. -/
def Display.inLine (d : Display) (s : State) (c : Char) : State × Octets :=
  let before : Octets := if s.held then ['\r'] else []
  let (s, number) := if d.numbers && s.empties.isSome then s.number else (s, [])
  let s := { s with empties := none, held := false }
  if d.hidden then (s, before ++ number ++ visible d.tabs c)
  else if c = '\t' ∧ d.tabs then (s, before ++ number ++ ['^', 'I'])
  else if c = '\r' ∧ d.ends then ({ s with held := true }, before ++ number)
  else (s, before ++ number ++ [c])

def Display.step (d : Display) (s : State) (c : Char) : State × Octets :=
  if c = '\n' then d.lineEnd s else d.inLine s c

def Display.copy (d : Display) (s : State) (text : Octets) : State × Octets :=
  if d = {} then (s, text)
  else
    let (s, out) := text.foldl (fun (s, out) c =>
      let (s, os) := d.step s c
      (s, os.foldl Array.push out)) (s, (#[] : Array Char))
    (s, out.toList)

/-- What an option asks for. -/
def Display.with (d : Display) : Char → Display
  | 'A' => { d with hidden := true, ends := true, tabs := true }
  | 'b' => { d with numbers := true, filledOnly := true }
  | 'e' => { d with ends := true, hidden := true }
  | 'E' => { d with ends := true }
  | 'n' => { d with numbers := true }
  | 's' => { d with squeezed := true }
  | 't' => { d with hidden := true, tabs := true }
  | 'T' => { d with tabs := true }
  | 'v' => { d with hidden := true }
  | _ => d

def options : OptionTable where
  letters := "AbeEnstTuv".toList.map (·, false)
  names := [⟨"number-nonblank", 'b', false⟩, ⟨"number", 'n', false⟩,
    ⟨"squeeze-blank", 's', false⟩, ⟨"show-nonprinting", 'v', false⟩,
    ⟨"show-ends", 'E', false⟩, ⟨"show-tabs", 'T', false⟩, ⟨"show-all", 'A', false⟩,
    ⟨"help", 'h', false⟩, ⟨"version", 'V', false⟩]

/-- A copy on its way through its operands. -/
structure Copying where
  run : Run
  state : State := {}
  /-- The input was asked for and is not there. -/
  failed : Bool := false

def copyOperand (setting : Setting) (d : Display) (c : Copying) (operand : String) : Copying :=
  let refuse (fault : Files.Fault) : Copying :=
    { c with run := setting.complain (asTyped operand ++ ": " ++ fault.reason) c.run }
  if Setting.isInput operand then
    match setting.input with
    | .error fault => { refuse fault with failed := c.failed || fault = .badDescriptor }
    | .ok _ =>
      let (state, out) := d.copy c.state c.run.unread
      { c with run := { c.run with unread := [] }.say out, state }
  else
    match setting.source operand with
    | .error fault => refuse fault
    | .ok source =>
      let (state, out) := d.copy c.state source.content
      { c with run := c.run.say out, state }

def copyOperands (setting : Setting) (d : Display) (operands : List String) : Run :=
  if !setting.hasOutput then
    setting.start.complain (setting.line "standard output: Bad file descriptor")
  else
    let operands := if operands.isEmpty then ["-"] else operands
    let c := operands.foldl (copyOperand setting d) { run := setting.start }
    let run := c.run.say (if c.state.held then ['\r'] else [])
    if c.failed then setting.complain "closing standard input: Bad file descriptor" run else run

end Cat

/-- Copy what the arguments name. -/
def cat : Program := fun setting =>
  match Cat.options.read setting.arguments with
  | (_, some fault) => setting.misused fault.message
  | (meanings, none) =>
    let d : Cat.Display := meanings.foldl (fun d meaning =>
      match meaning with
      | .option letter _ => d.with letter
      | .operand _ => d) {}
    Cat.copyOperands setting d (operandsOf meanings)

end Bindery.Formatter
