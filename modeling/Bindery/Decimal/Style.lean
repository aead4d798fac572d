import Bindery.Decimal.Shortest

/-! How a decimal is written.

A `Style` says between which exponents a decimal is written out in full, whether a
whole one shows a `.0`, and whether a zero shows its sign. Elsewhere the exponent
follows the digits, always with its sign. -/
namespace Bindery.Decimal

/-- The choices that number texts differ in. -/
structure Style where
  /-- Exponents from here … -/
  least : Int
  /-- … up to but not including here are written out. -/
  beyond : Int
  /-- A whole number ends in `.0`. -/
  pointZero : Bool
  /-- A negative zero has its sign. -/
  signedZero : Bool

def digitText (digits : List Nat) : String :=
  String.ofList (digits.map fun d => Char.ofNat ('0'.toNat + d))

/-- A decimal written out in full. -/
def positional (style : Style) (d : Digits) : String :=
  let whole := if style.pointZero then ".0" else ""
  if d.exponent < 0 then
    "0." ++ digitText (List.replicate ((-d.exponent).toNat - 1) 0 ++ d.digits)
  else
    let n := d.exponent.toNat + 1
    if d.digits.length ≤ n then
      digitText (d.digits ++ List.replicate (n - d.digits.length) 0) ++ whole
    else digitText (d.digits.take n) ++ "." ++ digitText (d.digits.drop n)

/-- A decimal with its exponent behind it. -/
def scientific (d : Digits) : String :=
  let fraction := if d.digits.length ≤ 1 then "" else "." ++ digitText (d.digits.drop 1)
  let sign := if d.exponent < 0 then "-" else "+"
  digitText (d.digits.take 1) ++ fraction ++ "e" ++ sign ++ toString d.exponent.natAbs

def write (style : Style) (x : Binary64) : String :=
  if x.isZero then
    (if x.negative && style.signedZero then "-" else "") ++
      (if style.pointZero then "0.0" else "0")
  else
    let d := shortest x
    (if x.negative then "-" else "") ++
      (if style.least ≤ d.exponent ∧ d.exponent < style.beyond then positional style d
        else scientific d)

end Bindery.Decimal
