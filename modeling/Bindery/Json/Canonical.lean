import Bindery.Data.StableSort
import Bindery.Json.Writer

/-! The canonical text of a JSON value, after RFC 8785.

Members are sorted by the UTF-16 code units of their keys, and numbers are written as
their value asks, not as they were read: a whole floating-point number looks like the
integer. An integer that a double could not hold for certain has no canonical text. -/
namespace Bindery.Json

def units16 (text : String) : List Nat :=
  text.toList.flatMap fun c =>
    if c.toNat < 0x10000 then [c.toNat]
    else [0xD800 + (c.toNat - 0x10000) / 0x400, 0xDC00 + (c.toNat - 0x10000) % 0x400]

/-- Canonical numbers: written out from `0.000001` up to twenty-one digits, nothing
behind a whole one, no sign on zero. -/
def canonicalStyle : Decimal.Style where
  least := -6
  beyond := 21
  pointZero := false
  signedZero := false

/-- The greatest integer with a canonical text. -/
def greatestInteger : Nat := Nat.pow 2 53 - 1

def Number.canonical? : Number → Option String
  | .integer i => if i.natAbs ≤ greatestInteger then some (toString i) else none
  | .double x => some (Decimal.write canonicalStyle x)

/-- Texts of members, by the code units of the keys. -/
def sortByKey (members : List (String × List Char)) : List (String × List Char) :=
  stableSort (fun a b => (compare (units16 a.1) (units16 b.1)).isLE) members

/-- Items with commas between them. -/
def separated : List (List Char) → List Char
  | [] => []
  | [item] => item
  | item :: next :: rest => item ++ ',' :: separated (next :: rest)

mutual

def canonicalChars? : Json → Option (List Char)
  | .null => some "null".toList
  | .bool true => some "true".toList
  | .bool false => some "false".toList
  | .number n => n.canonical?.map String.toList
  | .string s => some (stringChars s)
  | .array items => do
    let texts ← canonicalItems? items
    return '[' :: (separated texts ++ [']'])
  | .object members => do
    let texts ← canonicalMembers? members
    let ordered := (sortByKey texts).map fun m => stringChars m.1 ++ ':' :: m.2
    return '{' :: (separated ordered ++ ['}'])

def canonicalItems? : List Json → Option (List (List Char))
  | [] => some []
  | item :: rest => do
    let first ← canonicalChars? item
    let others ← canonicalItems? rest
    return first :: others

def canonicalMembers? : List (String × Json) → Option (List (String × List Char))
  | [] => some []
  | (key, value) :: rest => do
    let first ← canonicalChars? value
    let others ← canonicalMembers? rest
    return (key, first) :: others

end

/-- The canonical text of a value; none if it holds an integer that is too large. -/
def canonical? (value : Json) : Option String := (canonicalChars? value).map String.ofList

end Bindery.Json
