import Bindery.Formatter.Options
import Bindery.Formatter.Quoting

/-! The program that counts.

It counts lines, words, bytes and the columns of the longest line, of each operand and
of all together. A word is a run of characters that can be seen; what cannot be seen
neither starts nor ends one. Numbers stand in columns, as wide as the largest number can
get if only files are counted. -/
namespace Bindery.Formatter

namespace Wc

/-- What has been counted. -/
structure Counts where
  lines : Nat := 0
  words : Nat := 0
  bytes : Nat := 0
  longest : Nat := 0
deriving DecidableEq, Inhabited

/-- A count on its way through a text. -/
structure Counting where
  counts : Counts := {}
  inWord : Bool := false
  /-- The columns of the line so far. -/
  column : Nat := 0
deriving DecidableEq, Inhabited

/-- The counts with the line so far. -/
def Counting.finish (s : Counting) : Counts :=
  { s.counts with longest := max s.counts.longest s.column }

def Counting.step (s : Counting) (c : Char) : Counting :=
  let s := { s with counts := { s.counts with bytes := s.counts.bytes + 1 } }
  if c = '\n' then
    { counts := { s.finish with lines := s.counts.lines + 1 } }
  else if c = '\r' ∨ c = '\x0c' then { counts := s.finish }
  else if c = '\t' then { s with inWord := false, column := (s.column / 8 + 1) * 8 }
  else if c = ' ' then { s with inWord := false, column := s.column + 1 }
  else if c = '\x0b' then { s with inWord := false }
  else if isShown c then
    let words := if s.inWord then s.counts.words else s.counts.words + 1
    { counts := { s.counts with words }, inWord := true, column := s.column + 1 }
  else s

def Counts.of (text : Octets) : Counts := (text.foldl Counting.step {}).finish

/-- The counts of two texts; the longest line is in one of them. -/
def Counts.add (a b : Counts) : Counts where
  lines := a.lines + b.lines
  words := a.words + b.words
  bytes := a.bytes + b.bytes
  longest := max a.longest b.longest

/-- When the counts of all operands together are told. -/
inductive Total where
  | auto
  | always
  | only
  | never
deriving DecidableEq, Inhabited

/-- What is told. -/
structure Choice where
  lines : Bool := false
  words : Bool := false
  chars : Bool := false
  bytes : Bool := false
  longest : Bool := false
  total : Total := .auto
deriving DecidableEq, Inhabited

/-- The counts that are told, in order. -/
def Choice.figures (c : Choice) (counts : Counts) : List Nat :=
  (if c.lines then [counts.lines] else []) ++ (if c.words then [counts.words] else []) ++
    (if c.chars then [counts.bytes] else []) ++ (if c.bytes then [counts.bytes] else []) ++
    (if c.longest then [counts.longest] else [])

/-- The usual choice if nothing was asked for. -/
def Choice.orUsual (c : Choice) : Choice :=
  if (c.figures {}).isEmpty then { c with lines := true, words := true, bytes := true } else c

/-- The line that tells counts. -/
def Choice.line (c : Choice) (width : Nat) (name : String) (counts : Counts) : Octets :=
  let padded (n : Nat) : String :=
    let digits := toString n
    Text.replicate (width - digits.length) " " ++ digits
  let name :=
    if name = "" then "" else " " ++ if '\n' ∈ name.toList then asTyped name else name
  (Text.join " " ((c.figures counts).map padded) ++ name ++ "\n").toList

def options : OptionTable where
  letters := "clLmw".toList.map (·, false)
  names := [⟨"bytes", 'c', false⟩, ⟨"chars", 'm', false⟩, ⟨"lines", 'l', false⟩,
    ⟨"words", 'w', false⟩, ⟨"max-line-length", 'L', false⟩, ⟨"total", 'T', true⟩,
    ⟨"help", 'h', false⟩, ⟨"version", 'V', false⟩]

/-- The ways to tell the total, by name. -/
def totals : List (String × Total) :=
  [("auto", .auto), ("always", .always), ("only", .only), ("never", .never)]

/-- What an option asks for, unless it asks for an unknown way to tell the total. -/
def Choice.with (c : Choice) (letter : Char) (value : String) : Except String Choice :=
  match letter with
  | 'l' => .ok { c with lines := true }
  | 'w' => .ok { c with words := true }
  | 'm' => .ok { c with chars := true }
  | 'c' => .ok { c with bytes := true }
  | 'L' => .ok { c with longest := true }
  | 'T' =>
    match totals.lookup value with
    | some total => .ok { c with total }
    | none =>
      match totals.filter fun t => value.toList.isPrefixOf t.1.toList with
      | [(_, total)] => .ok { c with total }
      | [] => .error "invalid"
      | _ => .error "ambiguous"
  | _ => .ok c

/-- An operand with what it holds. -/
structure Counted where
  /-- How the operand was written, if it was. -/
  name : Option String
  source : Except Files.Fault Source

def width (choice : Choice) (counted : List Counted) : Nat :=
  if choice.total = .only then 1
  else
    match counted with
    | [] => 1
    | _ :: rest =>
      if rest.isEmpty && (choice.figures {}).length = 1 then 1
      else
        let size (c : Counted) : Nat :=
          match c.source with
          | .ok source => if source.isFile then source.content.length else 0
          | .error _ => 0
        let isLoose (c : Counted) : Bool :=
          match c.source with
          | .ok source => !source.isFile
          | .error fault => fault = .isFolder
        let digits := (toString (counted.foldl (fun n c => n + size c) 0)).length
        if counted.any isLoose then max 7 digits else digits

/-- The operands with what they hold; the input can be read but once. -/
def gather (setting : Setting) : Bool → List String → List Counted
  | _, [] => []
  | fresh, operand :: rest =>
    if Setting.isInput operand then
      let source : Except Files.Fault Source :=
        setting.input.map fun source => if fresh then source else { source with content := [] }
      ⟨operand, source⟩ :: gather setting false rest
    else
      let source : Except Files.Fault Source :=
        if operand = "" then .error .missing else setting.source operand
      ⟨operand, source⟩ :: gather setting fresh rest

/-- Count what operands name. -/
def count (setting : Setting) (choice : Choice) (operands : List String) : Run :=
  let counted : List Counted :=
    if operands.isEmpty then [⟨none, setting.input⟩] else gather setting true operands
  let width := width choice counted
  let readsInput : Bool := operands.isEmpty || operands.any Setting.isInput
  let start : Run := if readsInput then { setting.start with unread := [] } else setting.start
  let report (c : Counted) (counts : Counts) (lines : Octets) : Octets :=
    if choice.total = .only then lines
    else lines ++ choice.line width (c.name.getD "") counts
  let tell : Run × Counts × Octets → Counted → Run × Counts × Octets :=
    fun (run, total, lines) c =>
      match c.source with
      | .ok source =>
        let counts := Counts.of source.content
        (run, total.add counts, report c counts lines)
      | .error fault =>
        let isInput : Bool := c.name.all (· = "-")
        let text :=
          if isInput then typed "standard input" ++ ": " ++ fault.reason
          else if c.name = some "" then "invalid zero-length file name"
          else asTyped (c.name.getD "") ++ ": " ++ fault.reason
        let opened : Bool := fault = .isFolder || (fault = .badDescriptor && isInput)
        (setting.complain text run, total, if opened then report c {} lines else lines)
  let (run, total, lines) := counted.foldl tell (start, {}, [])
  let closing : Octets :=
    match choice.total with
    | .never => []
    | .only => choice.line width "" total
    | .always => choice.line width "total" total
    | .auto => if 1 < counted.length then choice.line width "total" total else []
  let run :=
    if readsInput then
      match setting.input with
      | .error .badDescriptor => setting.complain "-: Bad file descriptor" run
      | _ => run
    else run
  setting.finish (run.say (lines ++ closing))

end Wc

/-- Count what the arguments name. -/
def wc : Program := fun setting =>
  let (meanings, fault?) := Wc.options.read setting.arguments
  let choice? : Except (String × String) Wc.Choice := meanings.foldlM (fun choice meaning =>
    match meaning with
    | .option letter value => (choice.with letter value).mapError (value, ·)
    | .operand _ => .ok choice) {}
  match choice?, fault? with
  | .error (value, problem), _ =>
    let known := Text.join "" (Wc.totals.map fun (name, _) => "  - " ++ quoted name ++ "\n")
    setting.start.complain
      (setting.line (problem ++ " argument " ++ quoted value ++ " for " ++ quoted "--total") ++
        "Valid arguments are:\n" ++ known ++ setting.hint)
  | .ok _, some fault => setting.misused fault.message
  | .ok choice, none => Wc.count setting choice.orUsual (operandsOf meanings)

end Bindery.Formatter
