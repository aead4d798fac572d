import Bindery.Text.Pieces

/-! How complaints show names.

A name that a complaint speaks about stands between apostrophes, and what could not be
seen in it is written with a backslash (`quoted`). Names of files are shown the way they
would be typed, so a plain one stands without quotes (`asTyped`). -/
namespace Bindery.Formatter

def isShown (c : Char) : Bool := ' ' ≤ c && c ≤ '~'

/-- A character's number in three octal digits behind a backslash. -/
def octalEscape (c : Char) : String :=
  let digit (n : Nat) : Char := Char.ofNat ('0'.toNat + n % 8)
  String.ofList ['\\', digit (c.toNat / 64), digit (c.toNat / 8), digit c.toNat]

/-- The letter that stands for a control character behind a backslash. -/
def controlLetter? (c : Char) : Option Char :=
  ("abtnvfr".toList)[c.toNat - 7]?.filter fun _ => 7 ≤ c.toNat

/-- A character that cannot be seen, written with a backslash. -/
def escape (c : Char) : String :=
  match controlLetter? c with
  | some letter => String.ofList ['\\', letter]
  | none => octalEscape c

/-- A name between two marks, marks and backslashes in it behind a backslash. -/
def quotedWith (mark : Char) (text : String) : String :=
  let shown (c : Char) : String :=
    if c = mark ∨ c = '\\' then String.ofList ['\\', c]
    else if isShown c then String.singleton c
    else escape c
  String.singleton mark ++ Text.join "" (text.toList.map shown) ++ String.singleton mark

/-- A name between apostrophes. -/
def quoted (text : String) : String := quotedWith '\'' text

/-- A name as it stands in a list of set characters. -/
def printable (text : String) : String :=
  let shown (c : Char) : String :=
    if c = '\\' then "\\\\" else if isShown c then String.singleton c else escape c
  Text.join "" (text.toList.map shown)

/-- Whether a character is taken as something else when it is typed. -/
def isActive (c : Char) : Bool := !isShown c || c ∈ " !\"$&'()*;<=>?[\\^`|:".toList

/-- Whether a name can be typed without quotes. -/
def isPlain (text : String) : Bool :=
  match text.toList with
  | [] => false
  | first :: rest =>
    !(first ∈ ['#', '~'] || (first ∈ ['{', '}'] && rest.isEmpty)) &&
      (first :: rest).all fun c => !isActive c

/-- Whether a character is the same between either kind of quotes. -/
def isNeutral (c : Char) : Bool := c.isAlphanum || c ∈ " '%+,-./:]_".toList

/-- The body of a name between apostrophes. The flag tells that the last character was
written with a backslash, which needs quotes of its own. -/
def typedBody : Bool → List Char → String
  | _, [] => ""
  | escaping, c :: rest =>
    if c = '\'' then "'\\''" ++ typedBody false rest
    else if isShown c then
      (if escaping then "''" else "") ++ String.singleton c ++ typedBody false rest
    else (if escaping then "" else "'$'") ++ escape c ++ typedBody true rest

/-- A name in quotes as it would be typed. -/
def typed (text : String) : String :=
  if text.toList.all isNeutral && text.toList.contains '\'' then quotedWith '"' text
  else "'" ++ typedBody false text.toList ++ "'"

/-- A name as it would be typed, in quotes only if it needs them. -/
def asTyped (text : String) : String := if isPlain text then text else typed text

end Bindery.Formatter
