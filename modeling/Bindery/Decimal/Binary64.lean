/-! Finite 64-bit binary floating-point numbers, in exact arithmetic.

A number is a sign, a significand below `2 ^ 53` and an exponent, and stands for
`± significand * 2 ^ exponent`. Everything is decided on natural numbers: a quotient
is rounded to the nearest number, to the even one if it lies half way
(`Binary64.nearest?`), and a decimal is rounded so, once (`Binary64.ofDecimal?`). -/
namespace Bindery

/-- A finite number: `± significand * 2 ^ exponent`. -/
structure Binary64 where
  negative : Bool
  significand : Nat
  exponent : Int
deriving DecidableEq, Repr, Inhabited

namespace Binary64

def leastExponent : Int := -1074

def greatestExponent : Int := 971

def zero (negative : Bool) : Binary64 := ⟨negative, 0, leastExponent⟩

def isZero (x : Binary64) : Bool := x.significand == 0

/-- The whole number nearest to `num / den`, the even one of two. -/
def roundHalfEven (num den : Nat) : Nat :=
  let q := num / den
  let r := num % den
  if 2 * r < den then q
  else if den < 2 * r then q + 1
  else if q % 2 = 0 then q
  else q + 1

/-- `num / den / 2 ^ e` as a quotient of natural numbers. -/
def scale (num den : Nat) (e : Int) : Nat × Nat :=
  if 0 ≤ e then (num, den * Nat.pow 2 e.toNat) else (num * Nat.pow 2 (-e).toNat, den)

/-- The exponent at which `num / den` has a significand of 53 bits, or the least
exponent if that is higher. -/
def exponentOf (num den : Nat) : Int :=
  let guess : Int := (Nat.log2 num : Int) - (Nat.log2 den : Int) - 52
  let (n, d) := scale num den guess
  max leastExponent (if n / d < Nat.pow 2 52 then guess - 1 else guess)

/-- The number nearest to `num / den`; none if that is beyond the largest number. -/
def nearest? (negative : Bool) (num den : Nat) : Option Binary64 :=
  if num = 0 then some (zero negative)
  else
    let e := exponentOf num den
    let (n, d) := scale num den e
    let s := roundHalfEven n d
    let (s, e) := if s = Nat.pow 2 53 then (Nat.pow 2 52, e + 1) else (s, e)
    if greatestExponent < e then none else some ⟨negative, s, e⟩

/-- How many decimal digits a number has; none for 0. -/
def digitCount (n : Nat) : Nat := if n = 0 then 0 else (Nat.toDigits 10 n).length

/-- Decimals whose first digit stands further left than this are beyond every number. -/
def furthestLeft : Int := 310

/-- Decimals whose first digit stands further right than this round to zero. -/
def furthestRight : Int := -330

/-- The number nearest to `± digits * 10 ^ exponent`; none if that is beyond the largest
number. -/
def ofDecimal? (negative : Bool) (digits : Nat) (exponent : Int) : Option Binary64 :=
  let lead := (digitCount digits : Int) + exponent
  if digits = 0 ∨ lead < furthestRight then some (zero negative)
  else if furthestLeft < lead then none
  else if 0 ≤ exponent then nearest? negative (digits * Nat.pow 10 exponent.toNat) 1
  else nearest? negative digits (Nat.pow 10 (-exponent).toNat)

end Binary64

end Bindery
