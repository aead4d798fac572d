import Bindery.Json.Numeral
import Bindery.Json.Outline

/-! Reading JSON texts.

`Outline.ofText` gives the outline of a text and whether anything but blanks follows
the value; `read` hands it to a reader. The functions here take a value off the front
of the characters and give back what follows it, or nothing if they had to stop. -/
namespace Bindery.Json

/-- The four blanks of JSON. -/
def isBlank (c : Char) : Bool := c == ' ' || c == '\t' || c == '\n' || c == '\r'

/-- Characters without the blanks in front. -/
def skip (cs : List Char) : List Char := cs.dropWhile isBlank

/-! ### Strings -/

/-- What a string literal is made of: characters, and code units that escapes name. -/
inductive Piece where
  | char (c : Char)
  | unit (code : Nat)
deriving DecidableEq, Repr

def hexValue? (c : Char) : Option Nat :=
  if '0' ≤ c ∧ c ≤ '9' then some (c.toNat - '0'.toNat)
  else if 'a' ≤ c ∧ c ≤ 'f' then some (c.toNat - 'a'.toNat + 10)
  else if 'A' ≤ c ∧ c ≤ 'F' then some (c.toNat - 'A'.toNat + 10)
  else none

/-- A code unit from its four digits. -/
def unit? (a b c d : Char) : Option Nat := do
  let high := (← hexValue? a) * 16 + (← hexValue? b)
  let low := (← hexValue? c) * 16 + (← hexValue? d)
  return high * 256 + low

/-- The character that a one-letter escape stands for. -/
def shortEscape? (c : Char) : Option Char :=
  if c = '\x22' ∨ c = '\\' ∨ c = '/' then some c
  else if c = 'b' then some '\x08'
  else if c = 'f' then some '\x0c'
  else if c = 'n' then some '\n'
  else if c = 'r' then some '\r'
  else if c = 't' then some '\t'
  else none

/-- The pieces up to the closing quote, and what follows it. -/
def readPieces? : List Char → Option (List Piece × List Char)
  | [] => none
  | '\x22' :: rest => some ([], rest)
  | '\\' :: 'u' :: a :: b :: c :: d :: rest => do
    let code ← unit? a b c d
    let (pieces, rest) ← readPieces? rest
    return (.unit code :: pieces, rest)
  | '\\' :: c :: rest => do
    let e ← shortEscape? c
    let (pieces, rest) ← readPieces? rest
    return (.char e :: pieces, rest)
  | c :: rest =>
    if c.toNat < 0x20 then none
    else do
      let (pieces, rest) ← readPieces? rest
      return (.char c :: pieces, rest)

/-- Whether a code unit is the first half of a surrogate pair. -/
def isHighHalf (code : Nat) : Bool := decide (0xD800 ≤ code) && decide (code < 0xDC00)

/-- Whether a code unit is the second half of a surrogate pair. -/
def isLowHalf (code : Nat) : Bool := decide (0xDC00 ≤ code) && decide (code < 0xE000)

/-- The characters of a string; none if half a surrogate pair stands alone. -/
def joinPieces? : List Piece → Option (List Char)
  | [] => some []
  | .char c :: rest => do return c :: (← joinPieces? rest)
  | .unit high :: .unit low :: rest =>
    if isHighHalf high then
      if isLowHalf low then do
        let code := 0x10000 + (high - 0xD800) * 0x400 + (low - 0xDC00)
        return Char.ofNat code :: (← joinPieces? rest)
      else none
    else if isLowHalf high then none
    else do return Char.ofNat high :: (← joinPieces? (.unit low :: rest))
  | .unit code :: rest =>
    if isHighHalf code || isLowHalf code then none
    else do return Char.ofNat code :: (← joinPieces? rest)

/-! ### Values -/

mutual

/-- A value and what follows it. `fuel` bounds the steps that are left. -/
def readValue : Nat → List Char → Outline × Option (List Char)
  | 0, _ => (.absent, none)
  | fuel + 1, cs =>
    match skip cs with
    | 'n' :: 'u' :: 'l' :: 'l' :: rest => (.null, some rest)
    | 't' :: 'r' :: 'u' :: 'e' :: rest => (.bool true, some rest)
    | 'f' :: 'a' :: 'l' :: 's' :: 'e' :: rest => (.bool false, some rest)
    | '\x22' :: rest =>
      match readPieces? rest with
      | some (pieces, rest) => (.string ((joinPieces? pieces).map String.ofList), some rest)
      | none => (.absent, none)
    | '[' :: rest =>
      match skip rest with
      | ']' :: rest => (.array [] true, some rest)
      | rest =>
        let (items, after) := readItems fuel rest
        (.array items after.isSome, after)
    | '{' :: rest =>
      match skip rest with
      | '}' :: rest => (.object [] true, some rest)
      | rest =>
        let (members, after) := readMembers fuel rest
        (.object members after.isSome, after)
    | rest =>
      match Numeral.read? rest with
      | some (literal, rest) => (.number literal.value?, some rest)
      | none => (.absent, none)

/-- At least one item, and what follows the closing bracket. -/
def readItems : Nat → List Char → List Outline × Option (List Char)
  | 0, _ => ([], none)
  | fuel + 1, cs =>
    match readValue fuel cs with
    | (item, none) => ([item], none)
    | (item, some rest) =>
      match skip rest with
      | ',' :: rest =>
        let (items, after) := readItems fuel rest
        (item :: items, after)
      | ']' :: rest => ([item], some rest)
      | _ => ([item], none)

/-- At least one member, and what follows the closing brace. -/
def readMembers : Nat → List Char → List (Option String × Outline) × Option (List Char)
  | 0, _ => ([], none)
  | fuel + 1, cs =>
    match skip cs with
    | '\x22' :: rest =>
      match readPieces? rest with
      | none => ([], none)
      | some (pieces, rest) =>
        let key := (joinPieces? pieces).map String.ofList
        match skip rest with
        | ':' :: rest =>
          match readValue fuel rest with
          | (value, none) => ([(key, value)], none)
          | (value, some rest) =>
            match skip rest with
            | ',' :: rest =>
              let (members, after) := readMembers fuel rest
              ((key, value) :: members, after)
            | '}' :: rest => ([(key, value)], some rest)
            | _ => ([(key, value)], none)
        | _ => ([(key, .absent)], none)
    | _ => ([], none)

end

/-- The outline of a text, and whether nothing but blanks follows the value. Two steps
for each character are always enough. -/
def Outline.ofText (text : String) : Outline × Bool :=
  let cs := text.toList
  let (outline, after) := readValue (2 * cs.length + 2) cs
  (outline, after.any fun rest => (skip rest).isEmpty)

/-- How many arrays and objects may be open at once in a text. -/
def greatestDepth : Nat := 127

/-- Read a text: the reader's fault comes before what follows the value. -/
def read {α : Type} (reader : Outline → Except Fault α) (text : String) : Except Fault α := do
  let (outline, clean) := Outline.ofText text
  Outline.ending clean (← reader outline)

/-- The value that a text stands for. -/
def parse (text : String) : Except Fault Json := read (Outline.value greatestDepth) text

end Bindery.Json
