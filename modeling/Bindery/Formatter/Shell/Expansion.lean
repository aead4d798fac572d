import Bindery.Formatter.Shell.Arithmetic
import Bindery.Formatter.Shell.Pattern
import Bindery.Formatter.Shell.Switches

/-! Expanding words.

The pieces of a word are worked out from left to right and give bits: characters, each
with whether it was quoted and whether it can part fields. Where a word stands for
several fields, the bits are parted, and each field is a pattern for the names of files. -/
namespace Bindery.Formatter.Shell

/-- A bit of an expanded word. -/
inductive Bit where
  | char (c : Char) (quoted splits : Bool)
  /-- There is a field here even if it is empty. -/
  | quotes
  /-- A field ends here. -/
  | boundary
deriving DecidableEq, Inhabited

def bitChars (bits : List Bit) : List PatternChar :=
  bits.filterMap fun
    | .char c quoted _ => some (c, quoted)
    | .quotes | .boundary => none

def bitText (bits : List Bit) : String := String.ofList ((bitChars bits).map (·.1))

def valueBits (quoted : Bool) (text : String) : List Bit :=
  text.toList.map fun c => .char c quoted !quoted

/-! ### Fields -/

/-- Fields on their way through bits. -/
structure Splitting where
  /-- The fields that are done, the last first. -/
  fields : List (List PatternChar) := []
  /-- The characters of the field, the last first. -/
  field : List PatternChar := []
  /-- There is a field here even if it is empty. -/
  isField : Bool := false
  /-- A separator was passed just now; another one belongs to it if it was white space. -/
  passing : Option Bool := none

/-- The field ends here. -/
def Splitting.close (s : Splitting) : Splitting where
  fields := s.field.reverse :: s.fields
  passing := s.passing

/-- Pass a separator. White space around a separator belongs to it, and white space at the
beginning is none. -/
def Splitting.separate (s : Splitting) (c : Char) : Splitting :=
  let isBlank : Bool := c ∈ [' ', '\t', '\n']
  match s.passing, isBlank with
  | some _, true => s
  | some true, false => { s with passing := some false }
  | some false, false => { s.close with passing := some false }
  | none, true => if s.isField then { s.close with passing := some true } else s
  | none, false => { s.close with passing := some false }

/-- Take in a bit. -/
def Splitting.step (separators : List Char) (s : Splitting) : Bit → Splitting
  | .boundary => { s.close with passing := none }
  | .quotes => { s with isField := true, passing := none }
  | .char c quoted splits =>
    if splits ∧ separators.contains c then s.separate c
    else { s with field := (c, quoted) :: s.field, isField := true, passing := none }

def fieldsOf (separators : List Char) (bits : List Bit) : List (List PatternChar) :=
  let s := bits.foldl (Splitting.step separators) {}
  (if s.isField then s.close else s).fields.reverse

/-! ### Names of files -/

/-- The names in a folder that a pattern matches; a dot in front has to be written. -/
def matchingNames (item : Files.Item) (pattern : List PatternChar) : List String :=
  let isHidden (name : String) : Bool := name.toList.head? = some '.'
  let names := (Entries.keys item.items).filter fun name =>
    isMatch pattern name.toList && (!isHidden name || pattern.head?.any (·.1 = '.'))
  names.mergeSort fun a b => a ≤ b

def patternPieces : List PatternChar → List (List PatternChar)
  | [] => [[]]
  | c :: rest =>
    if c.1 = '/' then [] :: patternPieces rest
    else
      match patternPieces rest with
      | [] => [[c]]
      | piece :: more => (c :: piece) :: more

/-- The paths below an item that parts of a pattern match. -/
def matchingPaths (before : String) (item : Files.Item) :
    List (List PatternChar) → List String
  | [] => []
  | [last] =>
    if hasWildcard last then (matchingNames item last).map (before ++ ·)
    else
      let name := String.ofList (last.map (·.1))
      let isThere : Bool :=
        if name = "" ∨ name = "." then item.isFolder
        else (List.lookup name item.items).isSome
      if isThere then [before ++ name] else []
  | piece :: rest =>
    if hasWildcard piece then
      (matchingNames item piece).flatMap fun name =>
        match List.lookup name item.items with
        | some below => matchingPaths (before ++ name ++ "/") below rest
        | none => []
    else
      let name := String.ofList (piece.map (·.1))
      if name = "" ∨ name = "." then matchingPaths (before ++ name ++ "/") item rest
      else
        match List.lookup name item.items with
        | some below => matchingPaths (before ++ name ++ "/") below rest
        | none => []

/-- The paths that a field stands for: itself, unless it is a pattern that matches some. -/
def State.paths (s : State) (field : List PatternChar) : List String :=
  let text := String.ofList (field.map (·.1))
  if s.isOn 'f' ∨ !hasWildcard field then [text]
  else
    let found :=
      match patternPieces field with
      | [] :: rest => matchingPaths "/" s.machine.tree.root rest
      | pieces =>
        match s.machine.tree.item? s.folder with
        | some item => matchingPaths "" item pieces
        | none => []
    if found.isEmpty then [text] else found

/-! ### Parameters -/

def State.parameter? (s : State) (name : String) : Option String :=
  match name with
  | "#" => some (toString s.arguments.length)
  | "?" => some (toString s.status)
  | "-" => some s.letters
  | "$" => some (toString s.process)
  | "!" => s.jobs.head?.map fun job => toString job.1
  | "0" => some s.name
  | _ =>
    match name.toNat? with
    | some n => s.arguments[n - 1]?
    | none => s.valueOf? name

/-- Whether a name stands for all arguments. -/
def isAll (name : String) : Bool := name = "@" || name = "*"

/-- What stands between arguments that are joined. -/
def State.joint (s : State) : String :=
  match s.valueOf? "IFS" with
  | none => " "
  | some text => String.ofList (text.toList.take 1)

/-- The bits of all arguments, in a place where they can be several fields or not. -/
def State.argumentBits (s : State) (full : Bool) (name : String) (quoted : Bool) : List Bit :=
  if full ∧ quoted ∧ name = "@" then
    (s.arguments.map fun a => .quotes :: valueBits true a).intersperse [.boundary] |>.flatten
  else if full ∧ !quoted ∧ s.joint = "" then
    (s.arguments.map (valueBits false)).intersperse [.boundary] |>.flatten
  else valueBits quoted (Text.join s.joint s.arguments)

/-- Complain about a parameter that is not set. -/
def notSet {α : Type} (name : String) : ShellM α := ShellM.fail (name ++ ": parameter not set")

/-! ### Words -/

/-- Expand pieces. `substitute` runs the commands of a substitution and gives what they
wrote. Characters can part fields if the pieces stand in for a parameter. -/
def expand (substitute : Option Command → ShellM String) (full inUse : Bool) :
    List Piece → ShellM (List Bit)
  | [] => return []
  | piece :: rest => do
    let bits ←
      match piece with
      | .char c quoted => pure [.char c quoted (inUse && !quoted)]
      | .quotes => pure [.quotes]
      | .command body quoted => do
        let text ← substitute body
        pure (valueBits quoted text)
      | .arithmetic expression quoted => do
        let text := bitText (← expand substitute false false expression)
        pure (valueBits quoted (toString (← workOut text)))
      | .parameter name use quoted => do
        let s ← get
        let value? : Option String :=
          if isAll name then some (Text.join s.joint s.arguments) else s.parameter? name
        let required : ShellM String :=
          match value? with
          | some value => pure value
          | none => if s.isOn 'u' then notSet name else pure ""
        let bitsOfValue : List Bit :=
          if isAll name then s.argumentBits full name quoted
          else valueBits quoted (value?.getD "")
        match use with
        | .bad => ShellM.fail "Bad substitution"
        | .value => do
          let _ ← required
          pure bitsOfValue
        | .length => do
          let value ← required
          pure (valueBits quoted (toString value.length))
        | .fallback kind emptyToo word => do
          let isSet : Bool :=
            match value? with
            | none => false
            | some value => !(emptyToo && value = "")
          match kind, isSet with
          | .word, false | .whenSet, true => expand substitute full (!quoted) word
          | .whenSet, false => pure []
          | .word, true | .assign, true | .fail, true => pure bitsOfValue
          | .assign, false => do
            let text := bitText (← expand substitute false false word)
            unless isName name do ShellM.fail (name ++ ": bad variable name")
            ShellM.setVariable name text
            pure (valueBits quoted text)
          | .fail, false => do
            if word.isEmpty then
              ShellM.fail (name ++ ": parameter not set" ++ if emptyToo then " or null" else "")
            let text := bitText (← expand substitute false false word)
            ShellM.fail (name ++ ": " ++ text)
        | .trim atEnd longest pattern => do
          let value ← required
          let pattern := bitChars (← expand substitute false false pattern)
          pure (valueBits quoted (String.ofList (trimmed atEnd longest pattern value.toList)))
    return bits ++ (← expand substitute full inUse rest)

/-- Whether a piece is a plain character that goes on with the name behind a tilde. -/
def goesOnWithTilde (inAssignment : Bool) : Piece → Bool
  | .char c false => c ≠ '/' && !(inAssignment && c = ':')
  | .char _ true => true
  | _ => false

/-- The folder that stands for a tilde at the beginning of a word, and what follows it. -/
def tilde? (s : State) (inAssignment : Bool) : Word → Option (Word × Word)
  | .char '~' false :: rest =>
    let user := rest.takeWhile (goesOnWithTilde inAssignment)
    let after := rest.drop user.length
    let isClear : Bool :=
      match after with
      | [] | .char _ false :: _ => true
      | _ => false
    match plainText? user, s.valueOf? "HOME", isClear with
    | some "", some home, true => some (home.toList.map (.char · true), after)
    | some "root", _, true => some ("/root".toList.map (.char · true), after)
    | _, _, _ => none
  | _ => none

/-- A word with the tilde at its beginning replaced. -/
def withTilde (s : State) (w : Word) : Word :=
  match tilde? s false w with
  | some (home, rest) => home ++ rest
  | none => w

/-- A value with the tildes at its beginning and behind colons replaced. -/
def withTildes (s : State) : Nat → Word → Word
  | 0, w => w
  | n + 1, w =>
    let (start, rest) := (tilde? s true w).getD ([], w)
    let isColon : Piece → Bool
      | .char ':' false => true
      | _ => false
    let before := rest.takeWhile fun p => !isColon p
    match rest.drop before.length with
    | colon :: after => start ++ before ++ colon :: withTildes s n after
    | [] => start ++ before

def expandText (substitute : Option Command → ShellM String) (w : Word) : ShellM String := do
  let w := withTilde (← get) w
  return bitText (← expand substitute false false w)

/-- The pattern that a word stands for. -/
def expandPattern (substitute : Option Command → ShellM String) (w : Word) :
    ShellM (List PatternChar) := do
  let w := withTilde (← get) w
  return bitChars (← expand substitute false false w)

def expandFields (substitute : Option Command → ShellM String) (w : Word) :
    ShellM (List String) := do
  let w := withTilde (← get) w
  let bits ← expand substitute true false w
  let s ← get
  return (fieldsOf s.separators bits).flatMap s.paths

/-- The value that a word assigns. -/
def expandValue (substitute : Option Command → ShellM String) (w : Word) : ShellM String := do
  let w := withTildes (← get) w.length w
  return bitText (← expand substitute false false w)

end Bindery.Formatter.Shell
