import Bindery.Formatter.Programs
import Bindery.Formatter.Shell.Grammar
import Bindery.Formatter.Shell.State

/-! What the name of a command stands for.

A name stands for a function, for a command of the shell's own, or for a program. The
shell's special commands cannot be hidden by functions. -/
namespace Bindery.Formatter.Shell

/-- The shell's own commands that are not special. -/
def regularNames : List String :=
  ["[", "alias", "bg", "cd", "command", "echo", "false", "fg", "getopts", "hash", "jobs", "kill",
    "printf", "pwd", "read", "test", "true", "type", "ulimit", "umask", "unalias", "wait"]

/-- What the name of a command stands for. -/
inductive Meaning where
  | function (body : Command)
  | own (isSpecial : Bool)
  | program (path name : String)
  | denied
  | missing
deriving Inhabited

def isPath (name : String) : Bool := '/' ∈ name.toList

def State.tree (s : State) : Files.Tree := { s.machine.tree with home := s.folder }

/-- Look for a program by its path, or by its name in the folders of a search path. -/
def State.program (s : State) (search name : String) : Meaning :=
  if isPath name then
    match programAt s.tree name with
    | .program program => .program name program
    | .denied => .denied
    | .missing => .missing
  else
    match findProgram? s.tree search name with
    | some (path, program) => .program path program
    | none => if name = "" then .denied else .missing

/-- Where programs are looked for. -/
def State.search (s : State) : String := (s.valueOf? "PATH").getD ""

/-- What the name of a command stands for. -/
def State.meaning (s : State) (functionsToo : Bool) (search name : String) : Meaning :=
  if isPath name then s.program search name
  else
    match if functionsToo then s.functions.lookup name else none with
    | some body => .function body
    | none =>
      if name ∈ specialNames then .own true
      else if name ∈ regularNames then .own false
      else s.program search name

/-- Remember where a program was found. -/
def remember (name path : String) : ShellM Unit :=
  unless isPath name do
    modify fun s => { s with found := s.found.put name path }

/-- A text in apostrophes; apostrophes in it stand in quotes. -/
def inApostrophes (text : String) : String :=
  let rec pieces : Nat → List Char → List Char
    | 0, _ => []
    | n + 1, cs =>
      let plain := cs.takeWhile (· ≠ '\'')
      let rest := cs.drop plain.length
      let marks := rest.takeWhile (· = '\'')
      let rest := rest.drop marks.length
      '\'' :: plain ++ ['\''] ++
        (if marks.isEmpty then [] else '"' :: marks ++ ['"']) ++
        (if rest.isEmpty then [] else pieces n rest)
  String.ofList (pieces (text.length + 1) text.toList)

/-- Tell what a name stands for, in a sentence or in a word, and give a status. -/
def describe (sentence : Bool) (search? : Option String) (name : String) : ShellM Nat := do
  let s ← get
  let tell (words word : String) : ShellM Nat :=
    ShellM.sayText ((if sentence then name ++ words else word) ++ "\n")
  if (reserved.lookup name).isSome then tell " is a shell keyword" name
  else
    match s.aliases.lookup name with
    | some text =>
      tell (" is an alias for " ++ text) ("alias " ++ name ++ "=" ++ inApostrophes text)
    | none =>
      match s.meaning true (search?.getD s.search) name with
      | .function _ => tell " is a shell function" name
      | .own true => tell " is a special shell builtin" name
      | .own false => tell " is a shell builtin" name
      | .program path _ =>
        let isKnown := (s.found.lookup name).isSome && search?.isNone
        remember name path
        tell ((if isKnown then " is a tracked alias for " else " is ") ++ path) path
      | .denied | .missing =>
        if sentence then
          let _ ← ShellM.write 1 (name ++ ": not found\n").toList
        return 127

end Bindery.Formatter.Shell
