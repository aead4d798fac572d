import Bindery.Formatter.Shell.Token

/-! The commands of a script.

A script is read one line at a time: `nextCommand` takes the commands up to the end of
a line, or a whole compound command if a line ends inside one. What is wrong further
down does not show before the commands above it have run. -/
namespace Bindery.Formatter.Shell

/-- How tokens are read. -/
structure TokenMode where
  /-- Reserved words are marks. -/
  reserved : Bool := false
  /-- Aliases are replaced. -/
  aliases : Bool := reserved
  /-- Ends of lines are passed. -/
  lines : Bool := false
  site : Site := .bare

/-- A token, a reserved word as its mark. -/
def Token.asReserved (t : Token) : Token :=
  match t with
  | .word w false =>
    match (plainText? w).bind fun text => reserved.lookup text with
    | some m => .mark m
    | none => t
  | _ => t

/-- The text of the alias that a token names, unless the alias is being read. -/
def Reader.aliasText? (r : Reader) (t : Token) : Option (String × List Char) := do
  let name ←
    match t with
    | .word w false => plainText? w
    | _ => none
  let text ← r.aliases.lookup name
  guard (!r.busy.any fun (busy, left) => busy = name && left ≤ r.rest.length)
  return (name, text.toList)

def putBack (t : Token) : ReadM Unit := modify fun r => { r with held := some t }

/-- The next token. Texts that a line announces are read where it ends. -/
def next (commands : Bool → ReadM (Option Command)) (mode : TokenMode) : Nat → ReadM Token
  | 0 => ReadM.fail "script too long"
  | n + 1 => do
    let t ←
      match (← get).held with
      | some t => do
        modify fun r => { r with held := none }
        pure t
      | none => readToken commands mode.site n
    let r ← get
    if mode.lines ∧ t.is .newline then
      readDocuments commands n
      next commands mode n
    else
      let t := if mode.reserved then t.asReserved else t
      match if mode.aliases then r.aliasText? t else none with
      | some (name, text) =>
        set { r with rest := text ++ r.rest, busy := (name, r.rest.length) :: r.busy }
        next commands mode n
      | none => return t

/-- Names that belong to the shell itself and cannot be given to functions. -/
def specialNames : List String :=
  [".", ":", "break", "continue", "eval", "exec", "exit", "export", "local", "readonly",
    "return", "set", "shift", "times", "trap", "unset"]

/-- Which ends a list of commands has. -/
structure ListMode where
  /-- It ends with the line. -/
  oneLine : Bool := false
  /-- It can be empty. -/
  canBeEmpty : Bool := false

/-- One command after another, if there is one. -/
def andThen (before : Option Command) (c : Command) : Option Command :=
  match before with
  | none => some c
  | some b => some (.sequence b c)

mutual

/-- The commands of a substitution, up to its parenthesis or to the end. -/
def readSubstitution : Nat → Bool → ReadM (Option Command)
  | 0, _ => ReadM.fail "script too long"
  | n + 1, inParentheses => do
    let outer ← get
    set { outer with held := none, awaited := [] }
    let body ← readList n { canBeEmpty := true } none
    if inParentheses then
      let t ← next (readSubstitution n) {} n
      unless t.is .closing do ReadM.expecting t Mark.closing.name
    modify fun r => { r with held := outer.held, awaited := outer.awaited ++ r.awaited }
    return body

def readList : Nat → ListMode → Option Command → ReadM (Option Command)
  | 0, _, _ => ReadM.fail "script too long"
  | n + 1, mode, before => do
    let commands := readSubstitution n
    let t ← next commands { reserved := true, lines := !mode.oneLine } n
    match t with
    | .mark .newline =>
      readDocuments commands n
      return before
    | .mark .endOfFile =>
      readDocuments commands n
      putBack t
      return before
    | t =>
      putBack t
      let ends : Bool :=
        match t with
        | .mark m => m.endsList
        | _ => false
      if ends ∧ !mode.oneLine ∧ (mode.canBeEmpty ∨ before.isSome) then return before
      let c ← readChain n
      let t ← next commands {} n
      let c := if t.is .ampersand then .background c else c
      let all := andThen before c
      match t with
      | .mark .newline | .mark .endOfFile =>
        putBack t
        readList n mode all
      | .mark .ampersand | .mark .semicolon => readList n mode all
      | t =>
        if mode.oneLine then ReadM.unexpected t
        putBack t
        return all

/-- Pipelines with conditions between them. -/
def readChain : Nat → ReadM Command
  | 0 => ReadM.fail "script too long"
  | n + 1 => do
    let first ← readPipeline n
    readConditions n first

/-- The pipelines behind a first one, each with its condition. -/
def readConditions : Nat → Command → ReadM Command
  | 0, _ => ReadM.fail "script too long"
  | n + 1, before => do
    let commands := readSubstitution n
    let t ← next commands {} n
    let more (combine : Command → Command → Command) : ReadM Command := do
      putBack (← next commands { reserved := true, lines := true } n)
      let c ← readPipeline n
      readConditions n (combine before c)
    match t with
    | .mark .and => more .both
    | .mark .or => more .either
    | t => do
      putBack t
      return before

def readPipeline : Nat → ReadM Command
  | 0 => ReadM.fail "script too long"
  | n + 1 => do
    let commands := readSubstitution n
    let t ← next commands {} n
    let isNegated := t.is .negation
    if isNegated then putBack (← next commands { reserved := true } n) else putBack t
    let first ← readCommand n
    let all ← readPiped n [first]
    let c : Command :=
      match all with
      | [c] => c
      | cs => .pipeline cs
    return if isNegated then .negated c else c

/-- The commands behind a pipe, after those that are given in reverse. -/
def readPiped : Nat → List Command → ReadM (List Command)
  | 0, _ => ReadM.fail "script too long"
  | n + 1, before => do
    let commands := readSubstitution n
    let t ← next commands {} n
    if t.is .bar then
      putBack (← next commands { reserved := true, lines := true } n)
      let c ← readCommand n
      readPiped n (c :: before)
    else
      putBack t
      return before.reverse

/-- The commands in a compound command, which have to be there. Where the script ends
instead, the mark that is missing is what gets complained about. -/
def readBody : Nat → ReadM Command
  | 0 => ReadM.fail "script too long"
  | n + 1 => do return (← readList n {} none).getD default

def readCommand : Nat → ReadM Command
  | 0 => ReadM.fail "script too long"
  | n + 1 => do
    let commands := readSubstitution n
    let line := (← get).line
    let demand (m : Mark) : ReadM Unit := do
      let t ← next commands {} n
      unless t.is m do ReadM.expecting t m.name
    let withRedirections (c : List Redirection → Command) : ReadM Command := do
      return c (← readRedirections n [])
    let redirected (c : Command) : ReadM Command := withRedirections fun rs =>
      if rs.isEmpty then c else .redirected line c rs
    match ← next commands {} n with
    | .mark .if =>
      let test ← readTest n .then
      let body ← readBody n
      let c ← readBranches n test body
      demand .fi
      redirected c
    | .mark .while =>
      let test ← readTest n .do
      let body ← readBody n
      demand .done
      redirected (.loop false test body)
    | .mark .until =>
      let test ← readTest n .do
      let body ← readBody n
      demand .done
      redirected (.loop true test body)
    | .mark .for =>
      let name ←
        match ← next commands {} n with
        | .word w false =>
          match (plainText? w).filter isName with
          | some name => pure name
          | none => ReadM.fail "Bad for loop variable"
        | _ => ReadM.fail "Bad for loop variable"
      let t ← next commands { reserved := true, lines := true } n
      let words ←
        if t.is .in then readWords n []
        else do
          unless t.is .semicolon do putBack t
          pure [[Piece.parameter "@" .value true]]
      let t ← next commands { reserved := true, lines := true } n
      unless t.is .do do ReadM.expecting t Mark.do.name
      let body ← readBody n
      demand .done
      redirected (.each line name words body)
    | .mark .case =>
      let word ←
        match ← next commands {} n with
        | .word w _ => pure w
        | t => ReadM.expecting t "word"
      let t ← next commands { reserved := true, lines := true } n
      unless t.is .in do ReadM.expecting t Mark.in.name
      let branches ← readCases n []
      redirected (.select line word branches)
    | .mark .opening =>
      let body ← readBody n
      demand .closing
      withRedirections (.subshell line (some body))
    | .mark .openBrace =>
      let body ← readBody n
      demand .closeBrace
      redirected body
    | t@(.word _ _) | t@(.redirection _ _) =>
      putBack t
      readSimple n line [] [] []
    | t => ReadM.unexpected t

/-- The commands of a test, up to a mark. -/
def readTest : Nat → Mark → ReadM Command
  | 0, _ => ReadM.fail "script too long"
  | n + 1, m => do
    let mode : ListMode := {}
    match ← readList n mode none with
    | none => ReadM.expecting (← next (readSubstitution n) {} n) m.name
    | some c =>
      let t ← next (readSubstitution n) {} n
      unless t.is m do ReadM.expecting t m.name
      return c

/-- The branches behind the first one. -/
def readBranches : Nat → Command → Command → ReadM Command
  | 0, _, _ => ReadM.fail "script too long"
  | n + 1, test, body => do
    let t ← next (readSubstitution n) {} n
    match t with
    | .mark .elif =>
      let test' ← readTest n .then
      let body' ← readBody n
      return .choose test body (some (← readBranches n test' body'))
    | .mark .else => return .choose test body (some (← readBody n))
    | t =>
      putBack t
      return .choose test body none

/-- The words to go through, after those that are given in reverse. -/
def readWords : Nat → List Word → ReadM (List Word)
  | 0, _ => ReadM.fail "script too long"
  | n + 1, before => do
    match ← next (readSubstitution n) {} n with
    | .word w _ => readWords n (w :: before)
    | .mark .newline =>
      readDocuments (readSubstitution n) n
      return before.reverse
    | .mark .semicolon => return before.reverse
    | t => ReadM.unexpected t

/-- The patterns of a branch, after those that are given in reverse. -/
def readPatterns : Nat → Token → List Word → ReadM (List Word)
  | 0, _, _ => ReadM.fail "script too long"
  | n + 1, t, before => do
    let commands := readSubstitution n
    let pattern : Word :=
      match t with
      | .word w _ => w
      | .mark m =>
        match reserved.find? (·.2 = m) with
        | some (text, _) => text.toList.map (Piece.char · false)
        | none => []
      | .redirection _ _ => []
    let t' ← next commands {} n
    match t' with
    | .mark .bar => readPatterns n (← next commands {} n) (pattern :: before)
    | .mark .closing => return (pattern :: before).reverse
    | t' => ReadM.expecting t' Mark.closing.name

/-- The branches of a selection, after those that are given in reverse. -/
def readCases : Nat → List (List Word × Option Command) →
    ReadM (List (List Word × Option Command))
  | 0, _ => ReadM.fail "script too long"
  | n + 1, before => do
    let commands := readSubstitution n
    let t ← next commands { reserved := true, lines := true } n
    if t.is .esac then return before.reverse
    let t ← if t.is .opening then next commands {} n else pure t
    let patterns ← readPatterns n t []
    let body ← readList n { canBeEmpty := true } none
    let t ← next commands { reserved := true, lines := true } n
    if t.is .esac then return ((patterns, body) :: before).reverse
    unless t.is .branchEnd do ReadM.expecting t Mark.branchEnd.name
    readCases n ((patterns, body) :: before)

/-- The redirections that follow, after those that are given in reverse. -/
def readRedirections : Nat → List Redirection → ReadM (List Redirection)
  | 0, _ => ReadM.fail "script too long"
  | n + 1, before => do
    match ← next (readSubstitution n) { reserved := true } n with
    | .redirection descriptor operator =>
      let r ← readTarget n descriptor operator
      readRedirections n (r :: before)
    | t =>
      putBack t
      return before.reverse

/-- Where a redirection leads. -/
def readTarget : Nat → Option Nat → Operator → ReadM Redirection
  | 0, _, _ => ReadM.fail "script too long"
  | n + 1, descriptor, operator => do
    let commands := readSubstitution n
    match operator with
    | .to direction =>
      match ← next commands {} n with
      | .word w _ =>
        let usual := if direction = .read ∨ direction = .readWrite then 0 else 1
        return .to (descriptor.getD usual) direction w
      | t => ReadM.unexpected t
    | .document dropTabs =>
      match ← next commands { site := .delimiter } n with
      | .word w quoted =>
        let char : Piece → List Char
          | .char c _ => [c]
          | _ => []
        let number := (← get).nextDocument
        modify fun r => { r with
          nextDocument := number + 1
          awaited := r.awaited ++
            [⟨number, String.ofList (w.flatMap char), quoted, dropTabs⟩] }
        return .document (descriptor.getD 0) number
      | t => ReadM.unexpected t

/-- A command of words, after what is given in reverse; or the definition of a function. -/
def readSimple : Nat → Nat → List Word → List Word → List Redirection → ReadM Command
  | 0, _, _, _, _ => ReadM.fail "script too long"
  | n + 1, line, assignments, words, redirections => do
    let commands := readSubstitution n
    match ← next commands { aliases := words.isEmpty } n with
    | .word w quoted =>
      if words.isEmpty ∧ (assigned? w).isSome then
        readSimple n line (w :: assignments) words redirections
      else
        match words, assignments, redirections, quoted with
        | [], [], [], _ =>
          let t ← next commands {} n
          if t.is .opening then
            let t ← next commands {} n
            unless t.is .closing do ReadM.expecting t Mark.closing.name
            match (plainText? w).filter fun name => isName name && name ∉ specialNames with
            | none => ReadM.fail "Bad function name"
            | some name =>
              let line := (← get).line
              putBack (← next commands { reserved := true, lines := true } n)
              return .define line name (← readCommand n)
          else
            putBack t
            readSimple n line assignments [w] redirections
        | _, _, _, _ => readSimple n line assignments (w :: words) redirections
    | .redirection descriptor operator =>
      let r ← readTarget n descriptor operator
      readSimple n line assignments words (r :: redirections)
    | t =>
      putBack t
      return .simple line assignments.reverse words.reverse redirections.reverse

end

/-- What a line of a script holds. -/
inductive ScriptLine where
  | nothing
  | command (c : Command)
  | endOfScript

def readLine (fuel : Nat) : ReadM ScriptLine := do
  let commands := readSubstitution fuel
  let t ← next commands {} (fuel + 1)
  match t with
  | .mark .endOfFile => return .endOfScript
  | .mark .newline =>
    readDocuments commands fuel
    return .nothing
  | t =>
    putBack t
    match ← readList (fuel + 1) { oneLine := true } none with
    | some c => return .command c
    | none => return .nothing

/-- The commands up to the end of a line, and what is left of the script. -/
def nextCommand (fuel : Nat) (r : Reader) : Except ScriptFault (ScriptLine × Reader) :=
  (readLine fuel).run r

end Bindery.Formatter.Shell
