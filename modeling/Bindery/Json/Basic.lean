import Bindery.Decimal.Style

/-! JSON values.

Objects keep their members in the order in which they were named, numbers keep what
they were read as: a whole number, or a binary floating-point number. -/
namespace Bindery

/-- A number: whole, from `-2 ^ 63` to `2 ^ 64 - 1`, or a floating-point one. -/
inductive Json.Number where
  | integer (value : Int)
  | double (value : Binary64)
deriving DecidableEq, Repr, Inhabited

/-- A JSON value. -/
inductive Json where
  | null
  | bool (value : Bool)
  | number (value : Json.Number)
  | string (value : String)
  | array (items : List Json)
  | object (members : List (String × Json))
deriving Repr, Inhabited

namespace Json

/-- Numbers in JSON texts and in source code: written out from `0.00001` up to sixteen
digits, a whole floating-point number with `.0`, a negative zero with its sign. -/
def numberStyle : Decimal.Style where
  least := -5
  beyond := 16
  pointZero := true
  signedZero := true

def Number.text : Number → String
  | .integer i => toString i
  | .double x => Decimal.write numberStyle x

end Json

end Bindery
