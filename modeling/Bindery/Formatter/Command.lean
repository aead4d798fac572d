import Bindery.Formatter.Shell.Evaluation
import Bindery.Text.Blank

/-! Commands that format a text.

A command line is cut at blanks into a program and its arguments; quotes mean nothing.
The text goes through the program. That the program failed is said before anything
else: a program that ends early also leaves input behind, and only of a program that
succeeded does it matter that it left more than a pipe holds. -/
namespace Bindery.Formatter

/-- A program and its arguments. -/
structure FormatCommand where
  program : String
  arguments : List String := []
deriving DecidableEq, Inhabited

/-- Why no text came out of a formatter. -/
inductive FormatError where
  | noCommand
  | notStarted (program : String)
  | failed (program : String) (complaint : String)
  | inputRefused
  | notText
deriving DecidableEq, Inhabited

def FormatError.message : FormatError → String
  | .noCommand => "Formatter command is empty"
  | .notStarted program => "Failed to start formatter '" ++ program ++ "'"
  | .failed program complaint => program ++ " failed: " ++ complaint
  | .inputRefused => "Failed to write to formatter stdin"
  | .notText => "Formatter produced invalid UTF-8"

def FormatCommand.parse (line : String) : Except FormatError FormatCommand :=
  match Text.words line with
  | [] => .error .noCommand
  | program :: arguments => .ok { program, arguments }

/-- The program that a name stands for: a path, or something in the folders for programs. -/
def program? (name : String) : Option String :=
  let tree := withPrograms .start
  if '/' ∈ name.toList then
    match programAt tree name with
    | .program program => some program
    | .denied | .missing => none
  else (findProgram? tree searchPath name).map (·.2)

def runProgram (program name : String) (arguments : List String) (text : Octets) : Run :=
  match plainPrograms.lookup program with
  | none => Shell.runShell name arguments text
  | some plain =>
    let machine : Shell.Machine := {}
    plain
      { name, arguments, input := .ok ⟨text, false⟩
        source := machine.source machine.tree.home }

/-- How many pages of text a pipe holds that nobody reads. -/
def pipePages : Nat := 16

def pageSize : Nat := 4096

/-- Whether all of a text of which so much was read goes into a pipe. A page of which
something is unread still takes up a whole page. -/
def fitsPipe (length unread : Nat) : Bool :=
  unread = 0 || length - (length - unread) / pageSize * pageSize ≤ pipePages * pageSize

/-- What a run makes of a text of a certain length. -/
def Run.text (program : String) (length : Nat) (run : Run) : Except FormatError String :=
  if run.status ≠ 0 then
    .error (.failed program (Text.trim (Text.lossyText (bytesOf (run.on .complaint)))))
  else if !fitsPipe length run.unread.length then .error .inputRefused
  else
    match Text.text? (bytesOf (run.on .output)) with
    | some text => .ok text
    | none => .error .notText

/-- Send a text through a command. -/
def FormatCommand.format (c : FormatCommand) (text : String) : Except FormatError String :=
  match program? (octetWord c.program) with
  | none => .error (.notStarted c.program)
  | some program =>
    if c.arguments.any fun a => '\x00' ∈ a.toList then .error (.notStarted c.program)
    else
      let given := octets text
      (runProgram program (octetWord c.program) (c.arguments.map octetWord) given).text
        c.program given.length

end Bindery.Formatter
