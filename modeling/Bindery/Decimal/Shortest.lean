import Bindery.Decimal.Binary64

/-! The shortest decimal that reads back as a given number.

The decimals that read back as `x` are those nearer to `x` than to its neighbours.
`shortest` looks for them on ever finer decimal grids, starting with one digit: on
each grid the two points next to `x` are tried, and the first grid with a hit gives
the answer, the nearer point of two, the even one if they are equally near. -/
namespace Bindery.Decimal

/-- A positive decimal `d.ddd * 10 ^ exponent`: its digits, the first not 0 and the
last not 0. -/
structure Digits where
  digits : List Nat
  exponent : Int
deriving DecidableEq, Repr, Inhabited

def digitsOf (n : Nat) : List Nat :=
  (Nat.toDigits 10 n).map fun c => c.toNat - '0'.toNat

/-- The exponent of the first digit of `num / den`. -/
def leadingExponent (num den : Nat) : Int :=
  if den ≤ num then (Binary64.digitCount (num / den) : Int) - 1
  else -(Binary64.digitCount ((den - 1) / num) : Int)

def dropFinalZeros (digits : List Nat) : List Nat :=
  (digits.reverse.dropWhile (· = 0)).reverse

/-- The decimal `n * 10 ^ unit`. -/
def Digits.ofNat (n : Nat) (unit : Int) : Digits :=
  let ds := digitsOf n
  ⟨dropFinalZeros ds, unit + ds.length - 1⟩

/-- The decimals that read back as a number, between `low / den` and `high / den`, the
ends counting or not, around `value / den`. -/
structure Bracket where
  low : Nat
  value : Nat
  high : Nat
  den : Nat
  closed : Bool

/-- The bracket of a number that is not zero. A power of two has its lower neighbour
at half the distance. -/
def Bracket.around (x : Binary64) : Bracket :=
  let s := x.significand
  let below := if s = Nat.pow 2 52 ∧ Binary64.leastExponent < x.exponent then 1 else 2
  let (up, den) :=
    if 0 ≤ x.exponent then (Nat.pow 2 x.exponent.toNat, 4)
    else (1, 4 * Nat.pow 2 (-x.exponent).toNat)
  ⟨(4 * s - below) * up, 4 * s * up, (4 * s + 2) * up, den, s % 2 = 0⟩

/-- Whether `num / den` is in a bracket. -/
def Bracket.holds (b : Bracket) (num den : Nat) : Bool :=
  let l := b.low * den
  let m := num * b.den
  let h := b.high * den
  if b.closed then decide (l ≤ m) && decide (m ≤ h) else decide (l < m) && decide (m < h)

/-- The decimal of `count` digits nearest to the value, if it is in the bracket. -/
def Bracket.onGrid? (b : Bracket) (lead : Int) (count : Nat) : Option Digits :=
  let unit := lead - (count : Int) + 1
  let (n, d) :=
    if 0 ≤ unit then (b.value, b.den * Nat.pow 10 unit.toNat)
    else (b.value * Nat.pow 10 (-unit).toNat, b.den)
  let q := n / d
  let r := n % d
  let inside (k : Nat) : Bool :=
    if 0 ≤ unit then b.holds (k * Nat.pow 10 unit.toNat) 1
    else b.holds k (Nat.pow 10 (-unit).toNat)
  let nearer := if 2 * r < d ∨ (2 * r = d ∧ q % 2 = 0) then [q, q + 1] else [q + 1, q]
  (nearer.find? fun k => k != 0 && inside k).map fun k => Digits.ofNat k unit

/-- The shortest decimal that reads back as the magnitude of a number that is not
zero; seventeen digits always do. -/
def shortest (x : Binary64) : Digits :=
  let b := Bracket.around x
  let lead := leadingExponent b.value b.den
  ((List.range 17).findSome? fun i => b.onGrid? lead (i + 1)).getD ⟨[0], 0⟩

end Bindery.Decimal
