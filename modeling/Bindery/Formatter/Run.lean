import Bindery.Files.Fault
import Bindery.Formatter.Octets

/-! Running a program.

A program is given its name, its arguments and an input, and can open files. How it ran
is its status, what it wrote in the order in which it wrote it, and the part of its
input that it did not read. -/
namespace Bindery.Formatter

/-- What is written is either output or a complaint. -/
inductive Channel where
  | output
  | complaint
deriving DecidableEq, Inhabited

/-- How a program ran. -/
structure Run where
  status : Nat := 0
  written : List (Channel × Octets) := []
  unread : Octets := []
deriving DecidableEq, Inhabited

/-- Something to read. Of a file it is known beforehand how much there is. -/
structure Source where
  content : Octets
  isFile : Bool := false
deriving Inhabited

/-- What a program finds when it starts. -/
structure Setting where
  /-- The name by which it was called. -/
  name : String
  arguments : List String
  input : Except Files.Fault Source
  /-- Whether there is something to write to. -/
  hasOutput : Bool := true
  source : String → Except Files.Fault Source

/-- A program. -/
abbrev Program : Type := Setting → Run

namespace Run

/-- What was written to a channel. -/
def on (channel : Channel) (r : Run) : Octets :=
  (r.written.filter (·.1 = channel)).flatMap (·.2)

def say (os : Octets) (r : Run) : Run :=
  if os.isEmpty then r else { r with written := r.written ++ [(.output, os)] }

/-- Complain with a whole text; the program fails. -/
def complain (text : String) (r : Run) : Run :=
  { r with status := 1, written := r.written ++ [(.complaint, text.toList)] }

end Run

namespace Setting

/-- What there is to read, nothing if the input cannot be read. -/
def pending (s : Setting) : Octets :=
  match s.input with
  | .ok source => source.content
  | .error _ => []

/-- A run that has not done anything yet. -/
def start (s : Setting) : Run := { unread := s.pending }

/-- A line in which a program complains. -/
def line (s : Setting) (text : String) : String := s.name ++ ": " ++ text ++ "\n"

/-- Complain in a line. -/
def complain (s : Setting) (text : String) (r : Run) : Run := r.complain (s.line text)

/-- Where a program that was called wrongly sends its caller. -/
def hint (s : Setting) : String := "Try '" ++ s.name ++ " --help' for more information.\n"

/-- Complain about the way the program was called, and stop. -/
def misused (s : Setting) (text : String) : Run := s.start.complain (s.line text ++ s.hint)

def isInput (operand : String) : Bool :=
  operand ∈ ["-", "/dev/stdin", "/dev/fd/0", "/proc/self/fd/0"]

/-- Output is lost without something to write to, and the program fails at the end. -/
def finish (s : Setting) (r : Run) : Run :=
  if s.hasOutput || (r.on .output).isEmpty then r
  else
    s.complain "write error: Bad file descriptor"
      { r with written := r.written.filter (·.1 = .complaint) }

end Setting

end Bindery.Formatter
