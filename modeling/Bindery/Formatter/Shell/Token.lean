import Bindery.Formatter.Shell.Script
import Bindery.Text.Pieces

/-! The tokens of a script.

A reader holds what is left of a script, and knows the line it is in. Texts that follow
a line are announced in it and read when it ends; commands know them by their numbers. -/
namespace Bindery.Formatter.Shell

/-- What a script is parted by, and the words that are none where a command starts. -/
inductive Mark where
  | newline | semicolon | ampersand | and | or | bar | opening | closing | branchEnd | endOfFile
  | negation | «case» | «do» | done | elif | «else» | esac | fi | «for» | «if» | «in» | «then»
  | «until» | «while» | openBrace | closeBrace
deriving DecidableEq, Inhabited

/-- The words that are marks where a command starts. -/
def reserved : List (String × Mark) :=
  [("!", .negation), ("case", .case), ("do", .do), ("done", .done), ("elif", .elif),
    ("else", .else), ("esac", .esac), ("fi", .fi), ("for", .for), ("if", .if), ("in", .in),
    ("then", .then), ("until", .until), ("while", .while), ("\x7b", .openBrace),
    ("\x7d", .closeBrace)]

def Mark.name : Mark → String
  | .newline => "newline"
  | .semicolon => "\";\""
  | .ampersand => "\"&\""
  | .and => "\"&&\""
  | .or => "\"||\""
  | .bar => "\"|\""
  | .opening => "\"(\""
  | .closing => "\")\""
  | .branchEnd => "\";;\""
  | .endOfFile => "end of file"
  | mark => "\"" ++ ((reserved.find? (·.2 = mark)).map (·.1)).getD "" ++ "\""

/-- Whether a list of commands can end here. -/
def Mark.endsList : Mark → Bool
  | .closing | .branchEnd | .endOfFile | .do | .done | .elif | .else | .esac | .fi | .then
  | .closeBrace => true
  | _ => false

/-- What a redirection token asks for. -/
inductive Operator where
  | to (direction : Direction)
  /-- A text follows the line; tabs in front of its lines do not count. -/
  | document (dropTabs : Bool)
deriving DecidableEq, Inhabited

/-- A token. -/
inductive Token where
  | word (w : Word) (quoted : Bool)
  | redirection (descriptor : Option Nat) (operator : Operator)
  | mark (m : Mark)
deriving Inhabited

def Token.name : Token → String
  | .word _ _ => "word"
  | .redirection _ _ => "redirection"
  | .mark m => m.name

def Token.is (t : Token) (m : Mark) : Bool :=
  match t with
  | .mark m' => m' = m
  | _ => false

/-- A text that a line announces. -/
structure Awaited where
  number : Nat
  /-- The line that ends it. -/
  delimiter : String
  /-- Nothing in it has a meaning. -/
  isPlain : Bool
  dropTabs : Bool
deriving Inhabited

/-- Why a text is no script, and in which line that shows. -/
structure ScriptFault where
  line : Nat
  text : String
deriving DecidableEq, Inhabited

/-- What is left of a script. -/
structure Reader where
  rest : List Char
  line : Nat := 1
  /-- A token that has been looked at. -/
  held : Option Token := none
  awaited : List Awaited := []
  /-- The texts that have been read, by their numbers. -/
  documents : List (Nat × Document) := []
  nextDocument : Nat := 0
  aliases : List (String × String) := []
  /-- The aliases that are being read, with how much follows them. -/
  busy : List (String × Nat) := []
deriving Inhabited

/-- Reading a script. -/
abbrev ReadM : Type → Type := StateT Reader (Except ScriptFault)

namespace ReadM

/-- Give up. -/
def fail {α : Type} (text : String) : ReadM α := fun r => .error ⟨r.line, text⟩

def unexpected {α : Type} (t : Token) : ReadM α := fail (t.name ++ " unexpected")

/-- Give up because a token is not the mark that has to stand here. -/
def expecting {α : Type} (t : Token) (what : String) : ReadM α :=
  fail (t.name ++ " unexpected (expecting " ++ what ++ ")")

end ReadM

/-- A text without backslashes and the ends of lines right behind them, and how many lines
that joins. -/
def dropJoins : List Char → List Char × Nat
  | '\\' :: '\n' :: rest =>
    let (rest, lines) := dropJoins rest
    (rest, lines + 1)
  | rest => (rest, 0)

/-- The next character, without going on. Joined lines are passed. -/
def peek : ReadM (Option Char) := fun r =>
  let (rest, lines) := dropJoins r.rest
  .ok (rest.head?, { r with rest, line := r.line + lines })

/-- Take the next character. -/
def skip : ReadM Unit :=
  modify fun r =>
    match r.rest with
    | '\n' :: rest => { r with rest, line := r.line + 1 }
    | _ :: rest => { r with rest }
    | [] => r

/-! ### Words -/

/-- Where a piece stands, which decides what ends it and what has a meaning. -/
inductive Site where
  | bare
  /-- The word that ends a text. -/
  | delimiter
  | quotes
  /-- In the braces of a parameter, which can stand in quotes; the flag behind tells
  whether quotes are open inside the braces. -/
  | braces (quoted inner : Bool)
  /-- With so many parentheses open. -/
  | arithmetic (depth : Nat)
  | document
deriving DecidableEq, Inhabited

def Site.isQuoted : Site → Bool
  | .bare | .delimiter | .braces false _ => false
  | _ => true

def endsWord (c : Char) : Bool := c ∈ " \t\n;&|()<>".toList

/-- Whether a character is a parameter by itself. -/
def isSpecial (c : Char) : Bool := c.isDigit || c ∈ "@*#?$!-".toList

/-- Whether a backslash takes the meaning from a character here. -/
def Site.escapes (site : Site) (c : Char) : Bool :=
  match site with
  | .bare | .delimiter | .braces false _ => true
  | .quotes | .arithmetic _ => c ∈ ['\\', '\x60', '$', '"']
  | .braces true _ => c ∈ ['\\', '\x60', '$', '"', '}']
  | .document => c ∈ ['\\', '\x60', '$']

/-- What a parameter in braces starts with. -/
inductive Opening where
  | plain (name : String)
  | length (name : String)
  | bad
deriving DecidableEq, Inhabited

/-- The name of a parameter in braces, and what follows it. -/
def opening : List Char → Opening × List Char
  | '#' :: '}' :: rest => (.plain "#", '}' :: rest)
  | '#' :: c :: rest =>
    if startsName c then
      (.length (String.ofList ((c :: rest).takeWhile isNameChar)), rest.dropWhile isNameChar)
    else if c.isDigit then
      (.length (String.ofList ((c :: rest).takeWhile Char.isDigit)), rest.dropWhile Char.isDigit)
    else if rest.head? ≠ some '}' then (.plain "#", c :: rest)
    else if isSpecial c then (.length (String.singleton c), rest)
    else (.bad, c :: rest)
  | c :: rest =>
    if startsName c then
      (.plain (String.ofList ((c :: rest).takeWhile isNameChar)), rest.dropWhile isNameChar)
    else if c.isDigit then
      (.plain (String.ofList ((c :: rest).takeWhile Char.isDigit)), rest.dropWhile Char.isDigit)
    else if isSpecial c then (.plain (String.singleton c), rest)
    else (.bad, c :: rest)
  | [] => (.bad, [])

/-- What to do with a parameter. -/
inductive UseStart where
  | value
  | fallback (kind : Fallback) (emptyToo : Bool)
  | trim (atEnd longest : Bool)
  | bad
deriving DecidableEq, Inhabited

def fallback? : Char → Option Fallback
  | '-' => some .word
  | '=' => some .assign
  | '?' => some .fail
  | '+' => some .whenSet
  | _ => none

/-- What to do with a parameter in braces, behind its name, and what follows. -/
def useStart : List Char → UseStart × List Char
  | '}' :: rest => (.value, rest)
  | ':' :: c :: rest =>
    match fallback? c with
    | some kind => (.fallback kind true, rest)
    | none => (.bad, rest)
  | '%' :: '%' :: rest => (.trim true true, rest)
  | '%' :: rest => (.trim true false, rest)
  | '#' :: '#' :: rest => (.trim false true, rest)
  | '#' :: rest => (.trim false false, rest)
  | c :: rest =>
    match fallback? c with
    | some kind => (.fallback kind false, rest)
    | none => (.bad, rest)
  | [] => (.bad, [])

/-- The text between backquotes, and what follows it; no text if they stay open. -/
def betweenBackquotes (quoted : Bool) : List Char → Option (List Char) × List Char
  | [] => (none, [])
  | '\x60' :: rest => (some [], rest)
  | '\\' :: '\n' :: rest => betweenBackquotes quoted rest
  | '\\' :: c :: rest =>
    let (text?, after) := betweenBackquotes quoted rest
    let escaped : Bool := c ∈ ['\\', '\x60', '$'] || (quoted && c = '"')
    (text?.map fun text => if escaped then c :: text else '\\' :: c :: text, after)
  | c :: rest =>
    let (text?, after) := betweenBackquotes quoted rest
    (text?.map (c :: ·), after)

/-- The pieces of a text between apostrophes. -/
def betweenApostrophes : ReadM (List Piece) := do
  let r ← get
  let inside := r.rest.takeWhile (· ≠ '\'')
  let lines := inside.count '\n'
  match r.rest.dropWhile (· ≠ '\'') with
  | [] =>
    set { r with rest := [], line := r.line + lines }
    ReadM.fail "Unterminated quoted string"
  | _ :: rest =>
    set { r with rest, line := r.line + lines }
    return if inside.isEmpty then [.quotes] else inside.map (.char · true)

/-- Why a text may not end here. -/
def Site.openText? : Site → Option String
  | .bare | .delimiter | .document => none
  | .arithmetic _ => some "Missing '))'"
  | .braces false _ => some "Missing '\x7d'"
  | .quotes | .braces true _ => some "Unterminated quoted string"

/-- Read pieces. `commands` reads the commands of a substitution, up to a parenthesis if it
is told so. The pieces so far are held in reverse; the flag says that there were quotes. -/
def readPieces (commands : Bool → ReadM (Option Command)) :
    Nat → Site → List Piece → Bool → ReadM (List Piece × Bool)
  | 0, _, _, _ => ReadM.fail "word too long"
  | n + 1, site, before, quoted => do
    -- Only at the end are the pieces turned around.
    let finish : ReadM (List Piece × Bool) := fun r => .ok ((before.reverse, quoted), r)
    let goOn (p : Piece) : ReadM (List Piece × Bool) :=
      readPieces commands n site (p :: before) quoted
    match ← peek with
    | none =>
      match site.openText? with
      | some text => ReadM.fail text
      | none => finish
    | some c =>
      if (site = .bare ∨ site = .delimiter) ∧ endsWord c then finish
      else
        skip
        match c, site with
        | '\\', _ =>
          match (← get).rest with
          | [] => goOn (.char '\\' true)
          | c :: _ =>
            skip
            if site.escapes c then readPieces commands n site (.char c true :: before) true
            else
              readPieces commands n site (.char c true :: .char '\\' true :: before) true
        | '$', .delimiter => goOn (.char '$' false)
        | '$', _ => do
          let quotedHere := site.isQuoted
          match ← peek with
          | some '(' =>
            skip
            if (← peek) = some '(' then
              skip
              let (inside, _) ← readPieces commands n (.arithmetic 0) [] false
              goOn (.arithmetic inside quotedHere)
            else
              let body ← commands true
              goOn (.command body quotedHere)
          | some '{' =>
            skip
            let r ← get
            let (start, rest) := opening r.rest
            set { r with rest }
            let inBraces (quoted : Bool) : ReadM (List Piece) := do
              return (← readPieces commands n (.braces quoted false) [] false).1
            match start with
            | .bad =>
              let _ ← inBraces quotedHere
              goOn (.parameter "" .bad quotedHere)
            | .length name =>
              let _ ← inBraces quotedHere
              goOn (.parameter name .length quotedHere)
            | .plain name =>
              let (use, rest) := useStart rest
              modify fun r => { r with rest }
              match use with
              | .value => goOn (.parameter name .value quotedHere)
              | .fallback kind emptyToo =>
                let word ← inBraces quotedHere
                goOn (.parameter name (.fallback kind emptyToo word) quotedHere)
              | .trim atEnd longest =>
                let pattern ← inBraces false
                goOn (.parameter name (.trim atEnd longest pattern) quotedHere)
              | .bad =>
                let _ ← inBraces quotedHere
                goOn (.parameter name .bad quotedHere)
          | some c =>
            if startsName c then
              let r ← get
              let name := String.ofList (r.rest.takeWhile isNameChar)
              set { r with rest := r.rest.dropWhile isNameChar }
              goOn (.parameter name .value quotedHere)
            else if isSpecial c then
              skip
              goOn (.parameter (String.singleton c) .value quotedHere)
            else goOn (.char '$' quotedHere)
          | none => goOn (.char '$' quotedHere)
        | '\x60', _ => do
          let r ← get
          let (text?, rest) := betweenBackquotes site.isQuoted r.rest
          let passed := r.rest.take (r.rest.length - rest.length)
          match text? with
          | none =>
            set { r with rest := [], line := r.line + passed.count '\n' }
            ReadM.fail "EOF in backquote substitution"
          | some text =>
            set { r with rest := text, held := none, line := 1 }
            let body ← commands false
            modify fun inner =>
              { inner with rest, held := r.held, line := r.line + passed.count '\n' }
            goOn (.command body site.isQuoted)
        | '"', .quotes => finish
        | '"', .bare | '"', .delimiter | '"', .braces false _ => do
          let (inside, _) ← readPieces commands n .quotes [] false
          let inside : List Piece :=
            match inside with
            | [.parameter "@" .value _] => inside
            | _ => .quotes :: inside
          readPieces commands n site (inside.reverse ++ before) true
        | '"', .braces true inner =>
          readPieces commands n (.braces true !inner) before true
        | '\'', .bare | '\'', .delimiter | '\'', .braces false _ => do
          let inside ← betweenApostrophes
          readPieces commands n site (inside.reverse ++ before) true
        | '}', .braces _ false => finish
        | '(', .arithmetic depth =>
          readPieces commands n (.arithmetic (depth + 1)) (.char '(' true :: before) quoted
        | ')', .arithmetic (depth + 1) =>
          readPieces commands n (.arithmetic depth) (.char ')' true :: before) quoted
        | ')', .arithmetic 0 =>
          if (← peek) = some ')' then
            skip
            finish
          else goOn (.char ')' true)
        | c, _ => goOn (.char c site.isQuoted)

/-! ### Tokens -/

/-- The redirection that an arrow starts. -/
def readArrow (descriptor : Option Nat) : ReadM Token := do
  let first ← peek
  skip
  let second ← peek
  let arrow (direction : Direction) : Token := .redirection descriptor (.to direction)
  match first, second with
  | some '>', some '>' => skip; return arrow .append
  | some '>', some '|' => skip; return arrow .overwrite
  | some '>', some '&' => skip; return .redirection (some (descriptor.getD 1)) (.to .copy)
  | some '>', _ => return arrow .write
  | _, some '<' =>
    skip
    if (← peek) = some '-' then
      skip
      return .redirection descriptor (.document true)
    return .redirection descriptor (.document false)
  | _, some '&' => skip; return .redirection (some (descriptor.getD 0)) (.to .copy)
  | _, some '>' => skip; return .redirection (some (descriptor.getD 0)) (.to .readWrite)
  | _, _ => return arrow .read

/-- A token from the text, if there is one before the fuel ends. -/
def readToken (commands : Bool → ReadM (Option Command)) (site : Site) : Nat → ReadM Token
  | 0 => ReadM.fail "script too long"
  | n + 1 => do
    let ifNext (c : Char) (yes no : Mark) : ReadM Token := do
      if (← peek) = some c then
        skip
        return .mark yes
      return .mark no
    match ← peek with
    | none => return .mark .endOfFile
    | some ' ' | some '\t' => skip; readToken commands site n
    | some '#' =>
      modify fun r => { r with rest := r.rest.dropWhile (· ≠ '\n') }
      readToken commands site n
    | some '\n' => skip; return .mark .newline
    | some '&' => skip; ifNext '&' .and .ampersand
    | some '|' => skip; ifNext '|' .or .bar
    | some ';' => skip; ifNext ';' .branchEnd .semicolon
    | some '(' => skip; return .mark .opening
    | some ')' => skip; return .mark .closing
    | some c =>
      if c = '<' ∨ c = '>' then readArrow none
      else
        let (pieces, quoted) ← readPieces commands n site [] false
        match pieces, quoted, ← peek with
        | [.char d false], false, some c =>
          if d.isDigit ∧ (c = '<' ∨ c = '>') then readArrow (some (d.toNat - '0'.toNat))
          else return .word pieces quoted
        | _, _, _ => return .word pieces quoted

/-! ### Texts that follow a line -/

/-- A text up to the line that ends it, and what follows that. -/
def splitDocument (a : Awaited) : Nat → List Char → List Char × List Char
  | 0, rest => ([], rest)
  | _, [] => ([], [])
  | n + 1, rest =>
    let line := rest.takeWhile (· ≠ '\n')
    let after := rest.drop (line.length + 1)
    let line' := if a.dropTabs then line.dropWhile (· = '\t') else line
    if String.ofList line' = a.delimiter then ([], after)
    else
      let (text, final) := splitDocument a n after
      let ending : List Char := if line.length < rest.length then ['\n'] else []
      (line' ++ ending ++ text, final)

def readDocuments (commands : Bool → ReadM (Option Command)) (n : Nat) : ReadM Unit := do
  let awaited := (← get).awaited
  modify fun r => { r with awaited := [] }
  awaited.forM fun a => do
    let r ← get
    let (text, rest) := splitDocument a n r.rest
    let lines := (r.rest.take (r.rest.length - rest.length)).count '\n'
    let pieces ←
      if a.isPlain then pure (text.map (Piece.char · true))
      else do
        set { r with rest := text, held := none }
        pure (← readPieces commands n .document [] false).1
    modify fun inner => { inner with
      rest
      held := r.held
      line := r.line + lines
      documents := (a.number, pieces) :: inner.documents }

end Bindery.Formatter.Shell
