import Bindery.Formatter.Octets

/-! What a script is made of.

A script is read as commands. The words of a command are not texts yet: parameters,
results of commands and arithmetic stand in them until the command runs, and of each
character it is known whether it was quoted. -/
namespace Bindery.Formatter.Shell

/-- What an unset parameter is replaced by, or what is done about it. -/
inductive Fallback where
  /-- The word stands for it. -/
  | word
  /-- The word stands for it from now on. -/
  | assign
  /-- The word says what is wrong. -/
  | fail
  /-- The word stands for a parameter that is set, nothing for one that is not. -/
  | whenSet
deriving DecidableEq, Inhabited

/-- Where a redirection leads. -/
inductive Direction where
  | read
  | write
  /-- Write, even if files are not to be overwritten. -/
  | overwrite
  | append
  | readWrite
  /-- To where another descriptor leads. -/
  | copy
deriving DecidableEq, Inhabited

mutual

/-- A piece of a word. -/
inductive Piece where
  | char (c : Char) (quoted : Bool)
  /-- Quotes with nothing between them: there is a word even if it is empty. -/
  | quotes
  | parameter (name : String) (use : Use) (quoted : Bool)
  | command (body : Option Command) (quoted : Bool)
  | arithmetic (expression : List Piece) (quoted : Bool)

/-- What a parameter is used for. -/
inductive Use where
  | value
  | length
  /-- Whether an empty parameter counts as unset, and the word. -/
  | fallback (kind : Fallback) (emptyToo : Bool) (word : List Piece)
  /-- The parameter without the shortest or longest part that a pattern matches. -/
  | trim (atEnd longest : Bool) (pattern : List Piece)
  /-- Nothing that has a meaning. -/
  | bad

/-- A redirection of a descriptor. -/
inductive Redirection where
  | to (descriptor : Nat) (direction : Direction) (target : List Piece)
  /-- The text with a number that follows the line. -/
  | document (descriptor : Nat) (number : Nat)

/-- A command, with the line in which it stands. -/
inductive Command where
  | simple (line : Nat) (assignments words : List (List Piece)) (redirections : List Redirection)
  | negated (c : Command)
  | pipeline (cs : List Command)
  | both (a b : Command)
  | either (a b : Command)
  | sequence (a b : Command)
  | background (c : Command)
  | subshell (line : Nat) (body : Option Command) (redirections : List Redirection)
  | redirected (line : Nat) (c : Command) (redirections : List Redirection)
  | choose (test body : Command) (otherwise : Option Command)
  /-- As long as the test succeeds, or as long as it fails. -/
  | loop (inverted : Bool) (test body : Command)
  | each (line : Nat) (name : String) (words : List (List Piece)) (body : Command)
  | select (line : Nat) (word : List Piece) (branches : List (List (List Piece) × Option Command))
  | define (line : Nat) (name : String) (body : Command)

end

instance : Inhabited Piece := ⟨.quotes⟩
instance : Inhabited Command := ⟨.simple 0 [] [] []⟩

/-- A word of a command. -/
abbrev Word : Type := List Piece

/-- A text that follows the line of a command, in pieces. -/
abbrev Document : Type := List Piece

/-- A word without anything that needs to be worked out, as a text. -/
def plainText? : Word → Option String
  | [] => some ""
  | .char c false :: rest => (plainText? rest).map (String.singleton c ++ ·)
  | _ => none

def startsName (c : Char) : Bool := c.isAlpha || c = '_'

def isNameChar (c : Char) : Bool := c.isAlphanum || c = '_'

def isName (text : String) : Bool :=
  match text.toList with
  | [] => false
  | c :: rest => startsName c && rest.all isNameChar

/-- The name that a word assigns to, and the word behind the equals sign. -/
def assigned? (w : Word) : Option (String × Word) :=
  let isNamePiece : Piece → Bool
    | .char c false => isNameChar c
    | _ => false
  match w.dropWhile isNamePiece with
  | .char '=' false :: value =>
    (plainText? (w.takeWhile isNamePiece)).bind fun name =>
      if isName name then some (name, value) else none
  | _ => none

end Bindery.Formatter.Shell
