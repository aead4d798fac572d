import Bindery.Json.Basic

/-! Number literals.

A literal is read in two steps: `Numeral.read?` takes it off a text, digit by digit,
and `Numeral.value?` says which number it is. An integer that fits 64 bits is itself,
any other literal is the floating-point number nearest to it. -/
namespace Bindery.Json

def isDigit (c : Char) : Bool := decide ('0' ≤ c) && decide (c ≤ '9')

/-- The digits that a text starts with, as numbers, and the rest of the text. -/
def readDigits (cs : List Char) : List Nat × List Char :=
  ((cs.takeWhile isDigit).map fun c => c.toNat - '0'.toNat, cs.dropWhile isDigit)

/-- A number literal. -/
structure Numeral where
  negative : Bool
  whole : List Nat
  fraction : List Nat
  /-- The exponent's sign (negative or not) and digits. -/
  exponent : Option (Bool × List Nat)
  /-- Neither a fraction nor an exponent is written. -/
  plain : Bool
deriving DecidableEq, Repr

namespace Numeral

/-- A fraction, if a point follows; none if the point has no digit behind it. -/
def readFraction? : List Char → Option (List Nat × List Char)
  | '.' :: rest =>
    match readDigits rest with
    | ([], _) => none
    | (ds, rest) => some (ds, rest)
  | cs => some ([], cs)

/-- The digits of an exponent; none if there are none. -/
def readExponentDigits? (negative : Bool) (cs : List Char) :
    Option (Option (Bool × List Nat) × List Char) :=
  match readDigits cs with
  | ([], _) => none
  | (ds, rest) => some (some (negative, ds), rest)

/-- An exponent, if one follows. -/
def readExponent? : List Char → Option (Option (Bool × List Nat) × List Char)
  | c :: rest =>
    if c = 'e' ∨ c = 'E' then
      match rest with
      | '+' :: rest => readExponentDigits? false rest
      | '-' :: rest => readExponentDigits? true rest
      | rest => readExponentDigits? false rest
    else some (none, c :: rest)
  | [] => some (none, [])

/-- A literal without its sign. -/
def readUnsigned? (negative : Bool) (cs : List Char) : Option (Numeral × List Char) :=
  match readDigits cs with
  | ([], _) => none
  | (0 :: _ :: _, _) => none
  | (whole, rest) => do
    let (fraction, rest) ← readFraction? rest
    let (exponent, rest) ← readExponent? rest
    return (⟨negative, whole, fraction, exponent, fraction.isEmpty && exponent.isNone⟩, rest)

/-- The literal that a text starts with, and the rest of the text. -/
def read? : List Char → Option (Numeral × List Char)
  | '-' :: rest => readUnsigned? true rest
  | cs => readUnsigned? false cs

/-- The number that digits make. -/
def ofDigits (digits : List Nat) : Nat := digits.foldl (fun n d => 10 * n + d) 0

def written (l : Numeral) : Int :=
  match l.exponent with
  | none => 0
  | some (down, digits) => if down then -(ofDigits digits : Int) else ofDigits digits

/-- The nearest floating-point number; none if the literal is too large. -/
def double? (l : Numeral) : Option Number :=
  (Binary64.ofDecimal? l.negative (ofDigits (l.whole ++ l.fraction))
    (l.written - l.fraction.length)).map .double

/-- The number that a literal stands for; none if it is too large. An integer is the
literal's own value if it fits 64 bits; a negative zero is none. -/
def value? (l : Numeral) : Option Number :=
  let n := ofDigits l.whole
  if !l.plain then l.double?
  else if l.negative then
    if 0 < n ∧ n ≤ Nat.pow 2 63 then some (.integer (-n)) else l.double?
  else if n < Nat.pow 2 64 then some (.integer n)
  else l.double?

end Numeral

end Bindery.Json
