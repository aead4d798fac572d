import Bindery.Formatter.Options
import Bindery.Formatter.Quoting

/-! The program that copies the beginning.

It copies so many lines or bytes of what its operands name, or all but so many at the
end. A number can have a suffix that multiplies it. Lines are looked for in whole
blocks, so more is read than is copied, while bytes are read exactly. -/
namespace Bindery.Formatter

namespace Head

/-- How much is copied. -/
structure Extent where
  ofBytes : Bool := false
  /-- So much at the end is left out. -/
  allBut : Bool := false
  count : Nat := 10
deriving DecidableEq, Inhabited

/-- When the name of an operand stands above what is copied of it. -/
inductive Headers where
  | ifSeveral
  | always
  | never
deriving DecidableEq, Inhabited

/-- What is asked for. -/
structure Choice where
  extent : Extent := {}
  headers : Headers := .ifSeveral
  /-- What ends a line. -/
  lineEnd : Char := '\n'
deriving DecidableEq, Inhabited

/-- What is wrong with what is asked for. -/
inductive Misuse where
  | trailing (letter : Char)
  | badNumber (ofBytes : Bool) (text : String)
  | tooLarge (ofBytes : Bool) (text : String)
deriving DecidableEq, Inhabited

/-! ### Numbers -/

/-- The most that can be counted. -/
def countLimit : Nat := Nat.pow 2 64

/-- The power that a letter raises the base to. -/
def powerOf? : Char → Option Nat
  | 'k' | 'K' => some 1
  | 'm' | 'M' => some 2
  | 'G' => some 3
  | 'T' => some 4
  | 'P' => some 5
  | 'E' => some 6
  | 'Z' => some 7
  | 'Y' => some 8
  | 'R' => some 9
  | 'Q' => some 10
  | _ => none

/-- What a suffix multiplies by. -/
def factor? : List Char → Option Nat
  | [] => some 1
  | ['b'] => some 512
  | [c] => (powerOf? c).map (Nat.pow 1024)
  | [c, 'B'] | [c, 'D'] => (powerOf? c).map (Nat.pow 1000)
  | [c, 'i', 'B'] => (powerOf? c).map (Nat.pow 1024)
  | _ => none

/-- A number with its suffix; one is meant if there is only a suffix. -/
def readCount (ofBytes : Bool) (text : String) : Except Misuse Nat :=
  let cs := text.toList.dropWhile fun c => c = ' ' || ('\t' ≤ c && c ≤ '\r')
  let unsigned := if cs.head? = some '+' then cs.tail else cs
  let digits := unsigned.takeWhile Char.isDigit
  let (number, suffix) : Nat × List Char :=
    if digits.isEmpty then (1, cs)
    else
      (digits.foldl (fun n d => 10 * n + (d.toNat - '0'.toNat)) 0,
        unsigned.dropWhile Char.isDigit)
  if digits.isEmpty ∧ suffix.isEmpty then .error (.badNumber ofBytes text)
  else
    match factor? suffix with
    | none => .error (.badNumber ofBytes text)
    | some factor =>
      if number * factor < countLimit then .ok (number * factor)
      else .error (.tooLarge ofBytes text)

/-- The extent that a number asks for; a minus sign means all but so many. -/
def readExtent (ofBytes : Bool) (text : String) : Except Misuse Extent :=
  match text.toList with
  | '-' :: rest =>
    (readCount ofBytes (String.ofList rest)).map fun count => { ofBytes, allBut := true, count }
  | _ => (readCount ofBytes text).map fun count => { ofBytes, count }

/-! ### Arguments -/

def options : OptionTable where
  letters := [('c', true), ('n', true), ('q', false), ('v', false), ('z', false)] ++
    "0123456789".toList.map (·, false)
  names := [⟨"bytes", 'c', true⟩, ⟨"lines", 'n', true⟩, ⟨"quiet", 'q', false⟩,
    ⟨"silent", 'q', false⟩, ⟨"verbose", 'v', false⟩, ⟨"zero-terminated", 'z', false⟩,
    ⟨"help", 'h', false⟩, ⟨"version", 'V', false⟩]

/-- What an option asks for. -/
def Choice.with (c : Choice) (letter : Char) (value : String) : Except Misuse Choice :=
  match letter with
  | 'c' => (readExtent true value).map fun extent => { c with extent }
  | 'n' => (readExtent false value).map fun extent => { c with extent }
  | 'q' => .ok { c with headers := .never }
  | 'v' => .ok { c with headers := .always }
  | 'z' => .ok { c with lineEnd := '\x00' }
  | _ => if letter.isDigit then .error (.trailing letter) else .ok c

/-- What the letters behind a number in the first argument ask for, and the suffix that
they give the number. -/
def readShort : Choice → List Char → List Char → Except Misuse (Choice × List Char)
  | c, suffix, [] => .ok (c, suffix)
  | c, suffix, letter :: rest =>
    let ofBytes : Choice := { c with extent := { c.extent with ofBytes := true } }
    match letter with
    | 'c' => readShort ofBytes [] rest
    | 'b' | 'k' | 'm' => readShort ofBytes [letter] rest
    | 'l' => readShort { c with extent := { c.extent with ofBytes := false } } suffix rest
    | 'q' => readShort { c with headers := .never } suffix rest
    | 'v' => readShort { c with headers := .always } suffix rest
    | 'z' => readShort { c with lineEnd := '\x00' } suffix rest
    | _ => .error (.trailing letter)

/-- What a number in the first argument asks for, and the other arguments. -/
def readFirst : List String → Except Misuse (Choice × List String)
  | [] => .ok ({}, [])
  | first :: rest =>
    match first.toList with
    | '-' :: d :: more =>
      if d.isDigit then do
        let letters := more.dropWhile Char.isDigit
        let (choice, suffix) ← readShort {} [] letters
        let digits := d :: more.takeWhile Char.isDigit
        let count ← readCount choice.extent.ofBytes (String.ofList (digits ++ suffix))
        return ({ choice with extent := { choice.extent with count } }, rest)
      else .ok ({}, first :: rest)
    | _ => .ok ({}, first :: rest)

/-! ### Copying -/

/-- How much is read at once where the end is not known. -/
def blockSize : Nat := 8192

/-- The text behind so many lines, and how long they are; none if they reach its end. -/
def linesEnd (lineEnd : Char) : Nat → Nat → Octets → Nat
  | 0, length, _ | _, length, [] => length
  | count + 1, length, c :: rest =>
    linesEnd lineEnd (if c = lineEnd then count else count + 1) (length + 1) rest

/-- How many lines there are, the last one with or without its end. -/
def lineCount (lineEnd : Char) (text : Octets) : Nat :=
  text.count lineEnd + if text.getLast?.all (· = lineEnd) then 0 else 1

def Choice.length (c : Choice) (text : Octets) : Nat :=
  match c.extent.ofBytes, c.extent.allBut with
  | true, false => min c.extent.count text.length
  | true, true => text.length - c.extent.count
  | false, false => linesEnd c.lineEnd c.extent.count 0 text
  | false, true => linesEnd c.lineEnd (lineCount c.lineEnd text - c.extent.count) 0 text

/-- How much of the input is read to copy so much of it. -/
def Choice.readLength (c : Choice) (isFile : Bool) (text : Octets) (copied : Nat) : Nat :=
  if isFile then copied
  else if c.extent.allBut then text.length
  else if c.extent.ofBytes then copied
  else if c.extent.count = 0 then 0
  else if copied < text.length then (copied + blockSize - 1) / blockSize * blockSize
  else text.length

/-- A copy on its way through its operands. -/
structure Copying where
  run : Run
  /-- Nothing has a header yet. -/
  first : Bool := true
  /-- Output waits for the end, complaints do not. -/
  out : Octets := []

def copyOperand (setting : Setting) (choice : Choice) (headers : Bool) (c : Copying)
    (operand : String) : Copying :=
  let name := if operand = "-" then "standard input" else operand
  let withHeader : Copying :=
    if headers then
      { c with
        first := false
        out := c.out ++
          ((if c.first then "" else "\n") ++ "==> " ++ name ++ " <==\n").toList }
    else c
  let unreadable (fault : Files.Fault) : Copying :=
    if choice.extent.count = 0 ∧ !choice.extent.allBut then withHeader
    else
    { withHeader with
      run := setting.complain ("error reading " ++ typed name ++ ": " ++ fault.reason) c.run }
  if Setting.isInput operand then
    match setting.input with
    | .error .badDescriptor =>
      if choice.extent.allBut then
        { withHeader with
          run := setting.complain ("cannot fstat " ++ typed name ++ ": Bad file descriptor")
            c.run }
      else unreadable .badDescriptor
    | .error fault => unreadable fault
    | .ok source =>
      let text := c.run.unread
      let copied := choice.length text
      let rest := text.drop (choice.readLength source.isFile text copied)
      { withHeader with
        run := { c.run with unread := rest }, out := withHeader.out ++ text.take copied }
  else
    match setting.source operand with
    | .error .isFolder => unreadable .isFolder
    | .error fault =>
      { c with
        run := setting.complain
          ("cannot open " ++ typed operand ++ " for reading: " ++ fault.reason) c.run }
    | .ok source =>
      let text := source.content
      { withHeader with out := withHeader.out ++ text.take (choice.length text) }

/-- Copy the beginnings of what operands name. -/
def copyOperands (setting : Setting) (choice : Choice) (operands : List String) : Run :=
  let operands := if operands.isEmpty then ["-"] else operands
  let headers : Bool :=
    match choice.headers with
    | .always => true
    | .never => false
    | .ifSeveral => 1 < operands.length
  let c := operands.foldl (copyOperand setting choice headers) { run := setting.start }
  let run :=
    if operands.contains "-" && setting.input matches .error .badDescriptor then
      setting.complain "-: Bad file descriptor" c.run
    else c.run
  setting.finish (run.say c.out)

/-- How a misuse is answered. -/
def refuse (setting : Setting) : Misuse → Run
  | .trailing letter =>
    setting.misused ("invalid trailing option -- " ++ String.singleton letter)
  | .badNumber ofBytes text =>
    setting.complain ("invalid number of " ++ (if ofBytes then "bytes" else "lines") ++ ": " ++
      quoted text) setting.start
  | .tooLarge ofBytes text =>
    setting.complain ("invalid number of " ++ (if ofBytes then "bytes" else "lines") ++ ": " ++
      quoted text ++ ": Value too large for defined data type") setting.start

end Head

/-- Copy the beginnings of what the arguments name. -/
def head : Program := fun setting =>
  match Head.readFirst setting.arguments with
  | .error misuse => Head.refuse setting misuse
  | .ok (choice, arguments) =>
    let (meanings, fault?) := Head.options.read arguments
    let choice? : Except Head.Misuse Head.Choice := meanings.foldlM (fun choice meaning =>
      match meaning with
      | .option letter value => choice.with letter value
      | .operand _ => .ok choice) choice
    match choice?, fault? with
    | .error misuse, _ => Head.refuse setting misuse
    | .ok _, some fault => setting.misused fault.message
    | .ok choice, none =>
      let extent := choice.extent
      if extent.ofBytes ∧ extent.allBut ∧ Head.countLimit / 2 ≤ extent.count then
        Head.refuse setting (.tooLarge true (toString extent.count))
      else Head.copyOperands setting choice (operandsOf meanings)

end Bindery.Formatter
