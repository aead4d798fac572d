import Bindery.Text.CaseTable

/-! Lower case, for every script.

Each letter becomes its lower case letter, with two exceptions. A capital I with a dot
becomes an i and a combining dot. A capital sigma becomes the sigma that ends words
when a letter stands before it and none after it. -/
namespace Bindery.Text

/-- The lower case of one character; itself if it has none of its own. -/
def lowerChar (c : Char) : Char :=
  match upperRanges.find? (·.covers c.toNat) with
  | some r => Char.ofNat (c.toNat + r.shift).toNat
  | none => c

/-- Whether the first character that is not passed over has case. -/
def meetsCased (chars : List Char) : Bool :=
  match chars.dropWhile isCaseIgnorable with
  | [] => false
  | c :: _ => isCased c

/-- The characters in lower case; `before` holds those already read, last one first. -/
def lowerFrom : List Char → List Char → List Char
  | _, [] => []
  | before, c :: rest =>
    (if c = 'Σ' then
      if meetsCased before && !meetsCased rest then ['ς'] else ['σ']
    else if c = 'İ' then ['i', Char.ofNat 0x307]
    else [lowerChar c]) ++ lowerFrom (c :: before) rest

def lowerChars (chars : List Char) : List Char := lowerFrom [] chars

def lower (text : String) : String := String.ofList (lowerChars text.toList)

end Bindery.Text
