import Bindery.Formatter.CharSet
import Bindery.Formatter.Options

/-! The program that exchanges characters.

It exchanges the characters of one set for those at the same places in another, deletes
the characters of a set, or drops repeats of them. The class of one case can be
exchanged for the class of the other as a whole; otherwise a class may not be a target.
A target that is too short goes on with its last character. -/
namespace Bindery.Formatter

namespace Tr

/-- What is asked for. -/
structure Choice where
  complement : Bool := false
  delete : Bool := false
  squeeze : Bool := false
  /-- Exchange only as far as the target reaches. -/
  truncate : Bool := false
deriving DecidableEq, Inhabited

/-- What is wrong with the sets. -/
inductive Misuse where
  | fillerInFirst
  | severalFillers
  | equivalentTarget
  | classTarget
  | misaligned
  | emptyTarget
  | endsWithClass
  | mixedTarget
  | idleFiller
deriving DecidableEq, Inhabited

def Misuse.message : Misuse → String
  | .fillerInFirst => "the [c*] repeat construct may not appear in string1"
  | .severalFillers => "only one [c*] repeat construct may appear in string2"
  | .equivalentTarget => "[=c=] expressions may not appear in string2 when translating"
  | .classTarget =>
    "when translating, the only character classes that may appear in\n" ++
      "string2 are 'upper' and 'lower'"
  | .misaligned => "misaligned [:upper:] and/or [:lower:] construct"
  | .emptyTarget => "when not truncating set1, string2 must be non-empty"
  | .endsWithClass =>
    "when translating with string1 longer than string2,\n" ++
      "the latter string must not end with a character class"
  | .mixedTarget =>
    "when translating with complemented character classes,\n" ++
      "string2 must map all characters in the domain to one"
  | .idleFiller => "the [c*] construct may appear in string2 only when translating"

/-! ### Pairs -/

/-- The runs behind the current part. -/
def nextPart (runs : List CharRun) : List CharRun := runs.tail.dropWhile fun r => !r.starts

/-- A step along two rows of runs: the pair in front, and the rows behind it. A class
in one case is passed as a whole. -/
def advance (a : CharRun) (as : List CharRun) (b : CharRun) (bs : List CharRun) :
    List CharRun × List CharRun :=
  if b.case?.isSome then (nextPart (a :: as), nextPart (b :: bs))
  else
    let rest (r : CharRun) (count : Nat) (rs : List CharRun) : List CharRun :=
      if r.count ≤ count then rs
      else { r with count := r.count - count, starts := false } :: rs
    (rest a b.count as, rest b a.count bs)

/-- The pairs of two rows of runs, at most so many, and what is left of the second. -/
def pairs : Nat → List CharRun → List CharRun → List (CharRun × CharRun) × List CharRun
  | count + 1, a :: as, b :: bs =>
    let (as', bs') := advance a as b bs
    let (below, left) := pairs count as' bs'
    ((a, b) :: below, left)
  | _, _, bs => ([], bs)

/-- The pairs of two rows of runs, and what is left of the second. -/
def allPairs (as bs : List CharRun) : List (CharRun × CharRun) × List CharRun :=
  pairs (as.length + bs.length) as bs

def startsClass (r : CharRun) : Bool := r.case?.isSome && r.starts

/-- Whether a class stands where nothing can be exchanged for it: not beside another
class, or right behind the end of the first row. -/
def isMisaligned (as bs : List CharRun) : Bool :=
  let (below, left) := allPairs as bs
  (below.any fun (a, b) => startsClass b && !startsClass a) || left.head?.any startsClass

/-- By how much a class counts for less if it is exchanged as a whole. -/
def classExcess : Nat := 25

/-- The exchanges that a pair asks for. -/
def exchanges (pair : CharRun × CharRun) : List (Char × Char) :=
  match pair.1.case?, pair.2.case? with
  | some .lower, some .upper => CharClass.lower.chars.map fun c => (c, c.toUpper)
  | some .upper, some .lower => CharClass.upper.chars.map fun c => (c, c.toLower)
  | _, _ => [(pair.1.char, pair.2.char)]

/-- The target of an exchange, filled up and extended as far as it has to reach. -/
def target (choice : Choice) (first second : CharSet) : Except Misuse CharSet := do
  let length :=
    if choice.complement then 256 - (allOctets.filter (first.chars.contains ·)).length
    else first.length
  if 1 < second.fillers then throw .severalFillers
  if second.any fun | .same _ => true | _ => false then throw .equivalentTarget
  if second.any fun | p@(.members _) => p.case?.isNone | _ => false then throw .classTarget
  let filled :=
    if second.length ≤ length then second.fill (length - second.length) else second
  let classes :=
    if choice.complement then [] else
      (allPairs first.runs filled.runs).1.filter fun pair => pair.2.case?.isSome
  if !choice.complement && isMisaligned first.runs filled.runs then throw .misaligned
  let excess := classExcess * classes.length
  let reach := length - excess
  let given := filled.length - excess
  let extended ←
    if reach ≤ given || choice.truncate then pure filled
    else if given = 0 then throw .emptyTarget
    else
      match filled.getLast? with
      | some (.members _) => throw .endsWithClass
      | some (.single c) | some (.range _ c) | some (.same c) | some (.repeated c _) =>
        pure (filled ++ [.repeated c (reach - given)])
      | none => throw .emptyTarget
  let isMixed : Bool :=
    match extended.chars with
    | [] => true
    | c :: rest => extended.length ≠ length || rest.any (· ≠ c)
  if choice.complement && first.any (fun | .members _ => true | _ => false) && isMixed then
    throw .mixedTarget
  return extended

/-- What each character is exchanged for. -/
def exchangeTable (choice : Choice) (first target : CharSet) : Array Char :=
  let sources : List CharRun :=
    if choice.complement then
      (allOctets.filter fun c => !first.chars.contains c).map fun char => { char }
    else first.runs
  let targets : List CharRun :=
    if choice.complement then target.runs.map fun r => { r with case? := none } else target.runs
  ((allPairs sources targets).1.flatMap exchanges).foldl
    (fun table (a, b) => table.setIfInBounds a.toNat b) allOctets.toArray

/-! ### Filtering -/

/-- A text without repeats of characters in a table. -/
def squeezed (table : Array Bool) (text : Octets) : Octets :=
  let step : Option Char × Array Char → Char → Option Char × Array Char := fun (last?, out) c =>
    if last? = some c ∧ isMember table c then (last?, out) else (some c, out.push c)
  (text.foldl step (none, #[])).2.toList

/-- What is made of a text. -/
inductive Filter where
  | exchange (table : Array Char)
  | delete (table : Array Bool)
  | squeeze (table : Array Bool)

def Filter.apply (text : Octets) : Filter → Octets
  | .exchange table => text.map fun c => table.getD c.toNat c
  | .delete table => text.filter fun c => !isMember table c
  | .squeeze table => squeezed table text

/-- The filters for one or two sets. -/
def filters (choice : Choice) (first : CharSet) (second? : Option CharSet) :
    Except Misuse (List Filter) := do
  let chosen : Octets :=
    if choice.complement then allOctets.filter fun c => !first.chars.contains c
    else first.chars
  if 0 < first.fillers then throw .fillerInFirst
  match second? with
  | none =>
    return [if choice.squeeze then .squeeze (memberTable chosen) else .delete (memberTable chosen)]
  | some second =>
    if choice.delete then
      if 1 < second.fillers then throw .severalFillers
      if 0 < second.fillers then throw .idleFiller
      return [.delete (memberTable chosen), .squeeze (memberTable second.chars)]
    let target ← target choice first second
    let exchange := Filter.exchange (exchangeTable choice first target)
    return if choice.squeeze then [exchange, .squeeze (memberTable target.chars)] else [exchange]

/-! ### Arguments -/

def options : OptionTable where
  letters := "AcCdst".toList.map (·, false)
  names := [⟨"complement", 'c', false⟩, ⟨"delete", 'd', false⟩,
    ⟨"squeeze-repeats", 's', false⟩, ⟨"truncate-set1", 't', false⟩,
    ⟨"help", 'h', false⟩, ⟨"version", 'V', false⟩]
  mixed := false

/-- What an option asks for. -/
def Choice.with (c : Choice) : Char → Choice
  | 'c' | 'C' => { c with complement := true }
  | 'd' => { c with delete := true }
  | 's' => { c with squeeze := true }
  | 't' => { c with truncate := true }
  | _ => c

/-- What is wrong with the number of operands. -/
def countFault? (c : Choice) (operands : List String) : Option String :=
  let least := if c.delete = c.squeeze then 2 else 1
  let most := if c.delete && !c.squeeze then 1 else 2
  match operands with
  | [] => some "missing operand\n"
  | [only] =>
    if least = 1 then none
    else
      some ("missing operand after " ++ quoted only ++ "\n" ++
        if c.squeeze then
          "Two strings must be given when both deleting and squeezing repeats.\n"
        else "Two strings must be given when translating.\n")
  | _ =>
    match operands[most]? with
    | none => none
    | some extra =>
      some ("extra operand " ++ quoted extra ++ "\n" ++
        if operands.length = 2 then
          "Only one string may be given when deleting without squeezing repeats.\n"
        else "")

/-- The sets that operands spell. What is unclear about one is said before it is read,
and is no failure. -/
def readSets (setting : Setting) (run : Run) :
    List String → Run × Except SetFault (List CharSet)
  | [] => (run, .ok [])
  | operand :: rest =>
    let warned := (unclearEscapes operand).foldl (fun run warning =>
      { setting.complain ("warning: " ++ warning) run with status := run.status }) run
    match CharSet.parse operand with
    | .error fault => (warned, .error fault)
    | .ok set =>
      let (run, sets?) := readSets setting warned rest
      (run, sets?.map (set :: ·))

def filterInput (setting : Setting) (fs : List Filter) (run : Run) : Run :=
  match setting.input with
  | .error fault => setting.complain ("read error: " ++ fault.reason) run
  | .ok source =>
    let out := fs.foldl (fun text f => f.apply text) source.content
    setting.finish (Run.say out { run with unread := [] })

end Tr

/-- Exchange, delete or squeeze characters of the input. -/
def tr : Program := fun setting =>
  match Tr.options.read setting.arguments with
  | (_, some fault) => setting.misused fault.message
  | (meanings, none) =>
    let choice : Tr.Choice := meanings.foldl (fun choice meaning =>
      match meaning with
      | .option letter _ => choice.with letter
      | .operand _ => choice) {}
    let operands := operandsOf meanings
    match Tr.countFault? choice operands with
    | some text => setting.start.complain (setting.name ++ ": " ++ text ++ setting.hint)
    | none =>
      match Tr.readSets setting setting.start operands with
      | (run, .error fault) => setting.complain fault.message run
      | (run, .ok sets) =>
        match Tr.filters choice (sets.headD []) sets[1]? with
        | .error misuse => setting.complain misuse.message run
        | .ok fs => Tr.filterInput setting fs run

end Bindery.Formatter
