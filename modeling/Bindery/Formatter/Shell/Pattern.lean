import Bindery.Formatter.CharSet

/-! Patterns.

In a pattern a star stands for any text, a question mark for any character, and
brackets for one of several characters; quoted characters stand for themselves. -/
namespace Bindery.Formatter.Shell

/-- A character of a pattern, and whether it was quoted. -/
abbrev PatternChar : Type := Char × Bool

/-- What is in brackets. -/
inductive BracketItem where
  | chars (first last : Char)
  | members (k : CharClass)
deriving DecidableEq, Inhabited

def BracketItem.has : BracketItem → Char → Bool
  | .chars first last, c => first ≤ c && c ≤ last
  | .members k, c => k.has c

/-- The class that a bracket names, behind its colon, and what follows it. -/
def bracketClass? (cs : List PatternChar) : Option (CharClass × List PatternChar) := do
  let name := (cs.takeWhile fun c => c.1.isAlpha && !c.2).map (·.1)
  match cs.drop name.length with
  | (':', false) :: (']', false) :: rest =>
    return (← CharClass.byName.lookup (String.ofList name), rest)
  | _ => none

/-- The items up to a closing bracket, and what follows it. The flag tells that an item
came before. -/
def bracketItems : Nat → Bool → List PatternChar → Option (List BracketItem × List PatternChar)
  | 0, _, _ | _, _, [] => none
  | _ + 1, true, (']', false) :: rest => some ([], rest)
  | n + 1, _, ('[', false) :: (':', false) :: rest =>
    match bracketClass? rest with
    | some (k, after) => do
      let (items, final) ← bracketItems n true after
      return (.members k :: items, final)
    | none => do
      let (items, final) ← bracketItems n true ((':', false) :: rest)
      return (.chars '[' '[' :: items, final)
  | n + 1, _, (c, _) :: ('-', false) :: (d, quoted) :: rest =>
    if d = ']' ∧ !quoted then do
      let (items, final) ← bracketItems n true (('-', false) :: (d, quoted) :: rest)
      return (.chars c c :: items, final)
    else do
      let (items, final) ← bracketItems n true rest
      return (.chars c d :: items, final)
  | n + 1, _, (c, _) :: rest => do
    let (items, final) ← bracketItems n true rest
    return (.chars c c :: items, final)

/-- What brackets stand for, behind the opening one: whether everything else, and what. -/
def bracket? (cs : List PatternChar) : Option (Bool × List BracketItem × List PatternChar) :=
  let (inverted, cs) : Bool × List PatternChar :=
    match cs with
    | ('!', false) :: rest | ('^', false) :: rest => (true, rest)
    | _ => (false, cs)
  (bracketItems (cs.length + 1) false cs).map fun (items, rest) => (inverted, items, rest)

/-- A part of a pattern. -/
inductive PatternPart where
  | char (c : Char)
  | anyChar
  | anyText
  | oneOf (inverted : Bool) (items : List BracketItem)
deriving DecidableEq, Inhabited

def partsWithin : Nat → List PatternChar → List PatternPart
  | 0, _ | _, [] => []
  | n + 1, ('*', false) :: rest => .anyText :: partsWithin n rest
  | n + 1, ('?', false) :: rest => .anyChar :: partsWithin n rest
  | n + 1, ('[', false) :: rest =>
    match bracket? rest with
    | some (inverted, items, after) => .oneOf inverted items :: partsWithin n after
    | none => .char '[' :: partsWithin n rest
  | n + 1, (c, _) :: rest => .char c :: partsWithin n rest

def patternParts (cs : List PatternChar) : List PatternPart := partsWithin cs.length cs

/-- Whether parts match a whole text. -/
def matchesParts : List PatternPart → List Char → Bool
  | [], text => text.isEmpty
  | .anyText :: rest, [] => matchesParts rest []
  | .anyText :: rest, c :: text =>
    matchesParts rest (c :: text) || matchesParts (.anyText :: rest) text
  | _ :: _, [] => false
  | .char d :: rest, c :: text => c = d && matchesParts rest text
  | .anyChar :: rest, _ :: text => matchesParts rest text
  | .oneOf inverted items :: rest, c :: text =>
    (items.any (·.has c)) != inverted && matchesParts rest text
termination_by parts text => parts.length + text.length

def isMatch (pattern : List PatternChar) (text : List Char) : Bool :=
  matchesParts (patternParts pattern) text

/-- Whether a pattern has anything that stands for something else. -/
def hasWildcard (pattern : List PatternChar) : Bool :=
  pattern.any fun (c, quoted) => !quoted && c ∈ ['*', '?', '[']

/-- A text without the shortest or longest part that a pattern matches, at its end or at
its beginning. -/
def trimmed (atEnd longest : Bool) (pattern : List PatternChar) (text : List Char) : List Char :=
  let parts := patternParts pattern
  let counts := List.range (text.length + 1)
  let counts := if longest then counts.reverse else counts
  if atEnd then
    match counts.find? fun n => matchesParts parts (text.drop (text.length - n)) with
    | some n => text.take (text.length - n)
    | none => text
  else
    match counts.find? fun n => matchesParts parts (text.take n) with
    | some n => text.drop n
    | none => text

end Bindery.Formatter.Shell
