import Bindery.Formatter.Quoting
import Bindery.Formatter.Run

/-! Sets of characters as they are written.

A set is written as characters, ranges `a-z`, classes `[:alpha:]`, single characters
`[=a=]`, and repeats `[a*3]`; a repeat without a number fills up whatever is missing. A
backslash takes the meaning from the character behind it. Where order matters, a set is
a row of runs (`CharSet.runs`), of which a class of letters in one case can be told from
the same letters written out. -/
namespace Bindery.Formatter

/-- The classes of characters. -/
inductive CharClass where
  | alnum | alpha | blank | cntrl | digit | graph | lower | print | punct | space | upper | xdigit
deriving DecidableEq, Inhabited

namespace CharClass

/-- The classes by name. -/
def byName : List (String × CharClass) :=
  [("alnum", .alnum), ("alpha", .alpha), ("blank", .blank), ("cntrl", .cntrl),
    ("digit", .digit), ("graph", .graph), ("lower", .lower), ("print", .print),
    ("punct", .punct), ("space", .space), ("upper", .upper), ("xdigit", .xdigit)]

def has : CharClass → Char → Bool
  | .alnum, c => c.isAlphanum
  | .alpha, c => c.isAlpha
  | .blank, c => c = ' ' || c = '\t'
  | .cntrl, c => c < ' ' || c = '\x7f'
  | .digit, c => c.isDigit
  | .graph, c => ' ' < c && c < '\x7f'
  | .lower, c => c.isLower
  | .print, c => ' ' ≤ c && c < '\x7f'
  | .punct, c => ' ' < c && c < '\x7f' && !c.isAlphanum
  | .space, c => c = ' ' || ('\t' ≤ c && c ≤ '\r')
  | .upper, c => c.isUpper
  | .xdigit, c => c.isDigit || ('a' ≤ c && c ≤ 'f') || ('A' ≤ c && c ≤ 'F')

end CharClass

/-- The characters from one to another. -/
def charRange (first last : Char) : Octets :=
  (List.range (last.toNat + 1 - first.toNat)).map fun i => Char.ofNat (first.toNat + i)

/-- All characters that bytes stand for. -/
def allOctets : Octets := charRange '\x00' '\xff'

def CharClass.chars (k : CharClass) : Octets := allOctets.filter k.has

/-- A part of a set. -/
inductive SetPart where
  | single (c : Char)
  | range (first last : Char)
  | members (k : CharClass)
  | same (c : Char)
  /-- So many of a character; zero stands for as many as are missing. -/
  | repeated (c : Char) (count : Nat)
deriving DecidableEq, Inhabited

/-- A set as it is written. -/
abbrev CharSet : Type := List SetPart

/-- What is wrong with a set. -/
inductive SetFault where
  | noClassName
  | noEquivalent
  | badClass (name : String)
  | longEquivalent (name : String)
  | badCount (text : String)
  | reversed (first last : Char)
deriving DecidableEq, Inhabited

def SetFault.message : SetFault → String
  | .noClassName => "missing character class name '[::]'"
  | .noEquivalent => "missing equivalence class character '[==]'"
  | .badClass name => "invalid character class " ++ quoted name
  | .longEquivalent name =>
    printable name ++ ": equivalence class operand must be a single character"
  | .badCount text => "invalid repeat count " ++ quoted text ++ " in [c*n] construct"
  | .reversed first last =>
    let shown (c : Char) : String := if isShown c then String.singleton c else octalEscape c
    "range-endpoints of '" ++ shown first ++ "-" ++ shown last ++
      "' are in reverse collating sequence order"

/-! ### Reading -/

/-- A character of a written set, and whether a backslash took its meaning. -/
abbrev SetChar : Type := Char × Bool

/-- The control character that a letter stands for behind a backslash. -/
def escapedControl? (c : Char) : Option Char :=
  ("abtnvfr".toList.idxOf? c).map fun i => Char.ofNat (7 + i)

def octalDigit? (c : Char) : Option Nat :=
  if '0' ≤ c ∧ c ≤ '7' then some (c.toNat - '0'.toNat) else none

/-- At most so many octal digits that stay below 256, and what follows them. -/
def octalNumber : Nat → Nat → List Char → Nat × List Char
  | 0, n, cs => (n, cs)
  | _, n, [] => (n, [])
  | count + 1, n, c :: rest =>
    match octalDigit? c with
    | some d => if n * 8 + d < 256 then octalNumber count (n * 8 + d) rest else (n, c :: rest)
    | none => (n, c :: rest)

/-- A written set with its backslashes resolved, in at most `count` steps. -/
def unescapeWithin : Nat → List Char → List SetChar
  | 0, _ | _, [] => []
  | _ + 1, ['\\'] => [('\\', false)]
  | count + 1, '\\' :: c :: rest =>
    match octalDigit? c with
    | some _ =>
      let (n, rest) := octalNumber 3 0 (c :: rest)
      (Char.ofNat n, true) :: unescapeWithin count rest
    | none => ((escapedControl? c).getD c, true) :: unescapeWithin count rest
  | count + 1, c :: rest => (c, false) :: unescapeWithin count rest

/-- What is unclear about the backslashes in a written set: three octal digits can be too
much for a byte, and a backslash at the end has nothing to take the meaning from. -/
def unclearWithin : Nat → List Char → List String
  | 0, _ | _, [] => []
  | _ + 1, ['\\'] => ["an unescaped backslash at end of string is not portable"]
  | count + 1, '\\' :: c :: rest =>
    let below := unclearWithin count rest
    match octalDigit? c, rest with
    | some high, d :: e :: _ =>
      if high ≥ 4 ∧ (octalDigit? d).isSome ∧ (octalDigit? e).isSome then
        let pair := String.ofList [c, d]
        ("the ambiguous octal escape \\" ++ pair ++ String.singleton e ++
          " is being\n\tinterpreted as the 2-byte sequence \\0" ++ pair ++ ", " ++
          String.singleton e) :: below
      else below
    | _, _ => below
  | count + 1, _ :: rest => unclearWithin count rest

/-- What is unclear about the backslashes in a written set. -/
def unclearEscapes (text : String) : List String := unclearWithin text.length text.toList

/-- What stands in front of `mark` and `]`, and what follows them. -/
def closing? (mark : Char) : List SetChar → Option (List Char × List SetChar)
  | (a, e) :: (b, f) :: rest =>
    if (a, e) = (mark, false) ∧ (b, f) = (']', false) then some ([], rest)
    else (closing? mark ((b, f) :: rest)).map fun (inside, rest) => (a :: inside, rest)
  | _ => none

/-- Whether a star, digits and a bracket come next. -/
def isStarCount : List SetChar → Bool
  | ('*', false) :: rest =>
    (rest.dropWhile fun c => c.1.isDigit).head? = some (']', false)
  | _ => false

/-- The most that a character can be repeated. -/
def repeatLimit : Nat := Nat.pow 2 63

/-- The number of repeats; a leading zero makes it octal. -/
def repeatCount? (text : List Char) : Option Nat :=
  let base := if text.head? = some '0' then 8 else 10
  let value? : Option Nat := text.foldlM (fun n c =>
    if c.isDigit ∧ c.toNat - '0'.toNat < base then some (n * base + (c.toNat - '0'.toNat))
    else none) 0
  value?.filter (· < repeatLimit)

/-- A repeat behind its opening bracket, if one is written, and what follows it. -/
def repeat? : List SetChar → Except SetFault (Option (SetPart × List SetChar))
  | (c, _) :: ('*', false) :: rest =>
    let isInside (s : SetChar) : Bool := !s.2 && s.1 ≠ ']'
    match rest.dropWhile isInside with
    | (']', false) :: after =>
      let text := (rest.takeWhile isInside).map (·.1)
      match repeatCount? text with
      | some count => .ok (some (.repeated c count, after))
      | none => .error (.badCount (String.ofList text))
    | _ => .ok none
  | _ => .ok none

/-- A class or a single character behind its opening bracket, if one is written, and
what follows it. -/
def bracketed? : List SetChar → Except SetFault (Option (SetPart × List SetChar))
  | (mark, false) :: rest =>
    if mark = ':' ∨ mark = '=' then
      match closing? mark rest with
      | none => .ok none
      | some (inside, after) =>
        let name := String.ofList inside
        match decide (mark = ':'), inside with
        | true, [] => .error .noClassName
        | false, [] => .error .noEquivalent
        | false, [c] => .ok (some (.same c, after))
        | true, _ =>
          match CharClass.byName.lookup name with
          | some k => .ok (some (.members k, after))
          | none => if isStarCount rest then .ok none else .error (.badClass name)
        | false, _ => if isStarCount rest then .ok none else .error (.longEquivalent name)
    else .ok none
  | _ => .ok none

def readParts : Nat → List SetChar → Except SetFault CharSet
  | 0, _ => .ok []
  | count + 1, a :: b :: c :: rest => do
    let construct? : Option (SetPart × List SetChar) ←
      if a = ('[', false) then
        match ← bracketed? (b :: c :: rest) with
        | some found => pure (some found)
        | none => repeat? (b :: c :: rest)
      else pure none
    match construct? with
    | some (part, after) => return part :: (← readParts count after)
    | none =>
      if b = ('-', false) then
        if c.1 < a.1 then throw (.reversed a.1 c.1)
        return .range a.1 c.1 :: (← readParts count rest)
      return .single a.1 :: (← readParts count (b :: c :: rest))
  | _, short => .ok (short.map fun c => .single c.1)

def CharSet.parse (text : String) : Except SetFault CharSet :=
  readParts (text.length + 1) (unescapeWithin text.length text.toList)

/-! ### The characters in order -/

/-- A case that letters have. -/
inductive LetterCase where
  | lower
  | upper
deriving DecidableEq, Inhabited

/-- So many of one character. -/
structure CharRun where
  char : Char
  count : Nat := 1
  /-- The class in one case that the character stands for here. -/
  case? : Option LetterCase := none
  /-- The first of its part. -/
  starts : Bool := true
deriving DecidableEq, Inhabited

/-- The case that a part is a class of. -/
def SetPart.case? : SetPart → Option LetterCase
  | .members .lower => some .lower
  | .members .upper => some .upper
  | _ => none

def SetPart.runs (p : SetPart) : List CharRun :=
  let each (cs : List Char) : List CharRun :=
    cs.zipIdx.map fun (char, i) => { char, case? := p.case?, starts := i = 0 }
  match p with
  | .single c | .same c => [{ char := c }]
  | .range first last => each (charRange first last)
  | .members k => each k.chars
  | .repeated char count => if count = 0 then [] else [{ char, count }]

def CharSet.runs (s : CharSet) : List CharRun := s.flatMap SetPart.runs

/-- How many characters a set has, repeats that fill up not counted. -/
def CharSet.length (s : CharSet) : Nat := s.runs.foldl (fun n r => n + r.count) 0

def CharSet.chars (s : CharSet) : Octets := s.runs.map (·.char)

/-- How many repeats fill up. -/
def CharSet.fillers (s : CharSet) : Nat :=
  s.countP fun
    | .repeated _ 0 => true
    | _ => false

/-- A set whose filling repeat has a number. -/
def CharSet.fill (count : Nat) (s : CharSet) : CharSet :=
  s.map fun
    | .repeated c 0 => .repeated c count
    | part => part

/-- Which characters are in a list, by their numbers. -/
def memberTable (cs : List Char) : Array Bool :=
  cs.foldl (fun table c => table.setIfInBounds c.toNat true) (Array.replicate 256 false)

def isMember (table : Array Bool) (c : Char) : Bool := table.getD c.toNat false

end Bindery.Formatter
