/-! White space, and the words between it.

Blank characters are the ones of Unicode's White_Space property, so a no-break space
parts words and a zero-width space does not. -/
namespace Bindery.Text

/-- Unicode's White_Space. -/
def isBlank (c : Char) : Bool :=
  let n := c.toNat
  (9 ≤ n && n ≤ 13) || n == 0x20 || n == 0x85 || n == 0xA0 || n == 0x1680 ||
    (0x2000 ≤ n && n ≤ 0x200A) || n == 0x2028 || n == 0x2029 || n == 0x202F ||
    n == 0x205F || n == 0x3000

/-- The runs of characters between blanks, with an empty one between neighbours. -/
def blankParted : List Char → List (List Char)
  | [] => [[]]
  | c :: rest =>
    if isBlank c then [] :: blankParted rest
    else
      match blankParted rest with
      | [] => [[c]]
      | run :: more => (c :: run) :: more

/-- The maximal runs of characters that are not blank. -/
def wordChars (chars : List Char) : List (List Char) := (blankParted chars).filter (· ≠ [])

def words (text : String) : List String := (wordChars text.toList).map String.ofList

/-- A text without the blanks at its two ends. -/
def trim (text : String) : String :=
  String.ofList ((text.toList.dropWhile isBlank).reverse.dropWhile isBlank).reverse

end Bindery.Text
