import Bindery.Text.ClusterTable
import Bindery.Text.EmojiTable
import Bindery.Text.WidthTable

/-! What a reader takes for one character.

A letter and its marks, the parts of an emoji, the parts of a Korean syllable and the
consonants of a conjunct are one cluster each. A text is cut before a character unless
that character belongs to the cluster that was read so far. -/
namespace Bindery.Text

/-- What a character is among its neighbours. -/
inductive ClusterClass where
  | carriageReturn
  | lineFeed
  | control
  | extend
  | joiner
  | flagLetter
  | leadingMark
  | spacingMark
  | initialJamo
  | vowelJamo
  | finalJamo
  | openSyllable
  | closedSyllable
  | other
deriving DecidableEq, Repr, Inhabited

/-- Vowels of Korean syllables, and the signs that are joined like them. -/
def vowelJamoRanges : Ranges :=
  [(0x1160, 0x11A7), (0xD7B0, 0xD7C6), (0x16D63, 0x16D63), (0x16D67, 0x16D6A)]

/-- What a character is among its neighbours. -/
def clusterClass (c : Char) : ClusterClass :=
  let n := c.toNat
  let has (ranges : Ranges) : Bool := ranges.has c
  if n = 13 then .carriageReturn
  else if n = 10 then .lineFeed
  else if 0x20 ≤ n ∧ n < 0x7F then .other
  else if n = 0x200D then .joiner
  else if has controlRanges then .control
  else if has extendRanges || has [(0x1F3FB, 0x1F3FF)] then .extend
  else if has [(0x1F1E6, 0x1F1FF)] then .flagLetter
  else if has leadingMarkRanges then .leadingMark
  else if has spacingMarkRanges then .spacingMark
  else if has [(0x1100, 0x115F), (0xA960, 0xA97C)] then .initialJamo
  else if has vowelJamoRanges then .vowelJamo
  else if has [(0x11A8, 0x11FF), (0xD7CB, 0xD7FB)] then .finalJamo
  else if has [(0xAC00, 0xD7A3)] then
    if (n - 0xAC00) % 28 = 0 then .openSyllable else .closedSyllable
  else .other

/-- How far a sequence of two parts with a link between them has come. -/
inductive Link where
  | none
  | first
  | linked
deriving DecidableEq, Repr, Inhabited

/-- The cluster that was read so far, as far as it decides what belongs to it. -/
structure ClusterEnd where
  last : ClusterClass := .control
  /-- Whether it ends in an odd number of letters of flags. -/
  oddFlag : Bool := false
  /-- A pictograph, and a joiner behind it. -/
  pictograph : Link := .none
  /-- A consonant, and a sign behind it that links it to the next. -/
  conjunct : Link := .none
deriving DecidableEq, Repr, Inhabited

namespace ClusterEnd

/-- The end of a cluster with one more character. -/
def next (e : ClusterEnd) (c : Char) : ClusterEnd :=
  let kind := clusterClass c
  let attached : Bool := (kind = .extend || kind = .joiner) && c.toNat ≠ 0x200C
  { last := kind
    oddFlag := kind = .flagLetter && !e.oddFlag
    pictograph :=
      if pictographRanges.has c then .first
      else if e.pictograph = .first ∧ kind = .extend then .first
      else if e.pictograph = .first ∧ kind = .joiner then .linked
      else .none
    conjunct :=
      if conjunctConsonantRanges.has c then .first
      else if e.conjunct = .first ∧ conjunctLinkerRanges.has c then .linked
      else if attached then e.conjunct
      else .none }

/-- Whether a character belongs to the cluster that was read so far. -/
def takes (e : ClusterEnd) (c : Char) : Bool :=
  let kind := clusterClass c
  let isEnd (k : ClusterClass) : Bool := k = .carriageReturn || k = .lineFeed || k = .control
  if isEnd e.last || isEnd kind then e.last = .carriageReturn && kind = .lineFeed
  else
    match e.last, kind with
    | _, .extend | _, .joiner | _, .spacingMark => true
    | .leadingMark, _ => true
    | .initialJamo, .initialJamo | .initialJamo, .vowelJamo | .initialJamo, .openSyllable
    | .initialJamo, .closedSyllable => true
    | .openSyllable, .vowelJamo | .openSyllable, .finalJamo | .vowelJamo, .vowelJamo
    | .vowelJamo, .finalJamo => true
    | .closedSyllable, .finalJamo | .finalJamo, .finalJamo => true
    | .flagLetter, .flagLetter => e.oddFlag
    | _, _ =>
      (e.conjunct = .linked && conjunctConsonantRanges.has c) ||
        (e.pictograph = .linked && pictographRanges.has c)

end ClusterEnd

/-- The clusters of the characters that follow on the end of one; the first belongs to it. -/
def clustersFrom (e : ClusterEnd) : List Char → List Char × List (List Char)
  | [] => ([], [])
  | c :: rest =>
    if e.takes c then
      let (own, others) := clustersFrom (e.next c) rest
      (c :: own, others)
    else
      let (own, others) := clustersFrom (ClusterEnd.next {} c) rest
      ([], (c :: own) :: others)

def clusterChars : List Char → List (List Char)
  | [] => []
  | c :: rest =>
    let (own, others) := clustersFrom (ClusterEnd.next {} c) rest
    (c :: own) :: others

def clusters (text : String) : List String := (clusterChars text.toList).map String.ofList

end Bindery.Text
