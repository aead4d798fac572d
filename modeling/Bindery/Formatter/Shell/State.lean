import Bindery.Data.Entries
import Bindery.Formatter.Shell.Machine
import Bindery.Formatter.Shell.Script
import Bindery.Formatter.Shell.Signal

/-! A shell on its way through a script.

What a shell does can change it, what all processes share, or leave what it is doing:
a loop, a function, or the shell itself. A complaint that stops a command stops the
whole shell unless something on the way keeps it (`Leave.error`). -/
namespace Bindery.Formatter.Shell

/-- A variable. -/
structure Variable where
  value : Option String := none
  isExported : Bool := false
  isReadOnly : Bool := false
deriving DecidableEq, Inhabited

/-- Why what is being done is left. -/
inductive Leave where
  /-- The shell ends, with the status so far or another one. -/
  | exit (status? : Option Nat)
  /-- Something went wrong that ends the shell. -/
  | error
  | function
  /-- Some loops end, or the last of them goes on. -/
  | loop (levels : Nat) (goesOn : Bool)
  /-- A process gets a signal. -/
  | killed (process : Nat) (signal : Signal)
  | replaced
deriving DecidableEq, Inhabited

/-- A shell on its way through a script. -/
structure State where
  /-- What the shell calls itself. -/
  name : String := "sh"
  /-- The command of its own that is speaking. -/
  speaker : Option String := none
  line : Nat := 0
  /-- The number of the process, and the numbers of the shells that it was started from. -/
  process : Nat := 4711
  parents : List Nat := []
  bindings : Entries String Variable := []
  functions : Entries String Command := []
  aliases : Entries String String := []
  arguments : List String := []
  /-- The letters of the options that are on. -/
  switches : List Char := []
  status : Nat := 0
  /-- The status of the last substitution of a command. -/
  substituted : Nat := 0
  /-- How many loops surround the command. -/
  loops : Nat := 0
  /-- What the local variables of the functions that run were before. -/
  locals : List (List (String × Option Variable)) := []
  descriptors : List (Nat × Stream) := [(0, .given), (1, .output), (2, .complaint)]
  /-- What is done at the end and at signals. -/
  traps : Entries Signal String := []
  /-- The signals that have come and that the shell is prepared for. -/
  pending : List Signal := []
  directory : String := "/home"
  /-- The texts that commands know by numbers. -/
  documents : List (Nat × Document) := []
  nextDocument : Nat := 0
  /-- The argument with options that is read next, counted from one. -/
  optionIndex : Nat := 1
  /-- How much of the argument before it has been read, if something is left of it. -/
  optionPlace : Option Nat := none
  /-- The programs that were found, with their paths. -/
  found : Entries String String := []
  /-- The statuses of the processes that ran in the background, the last first. -/
  jobs : List (Nat × Nat) := []
  mask : Nat := 18
  machine : Machine := {}
deriving Inhabited

/-- What a shell does. -/
abbrev ShellM : Type → Type := ExceptT Leave (StateM State)

namespace State

/-- Where a descriptor leads. -/
def stream? (s : State) (descriptor : Nat) : Option Stream := s.descriptors.lookup descriptor

def isOn (s : State) (letter : Char) : Bool := s.switches.contains letter

/-- The folder that the shell is in. -/
def folder (s : State) : Files.Place := (Text.pieces '/' s.directory).filter (· ≠ "")

def valueOf? (s : State) (name : String) : Option String :=
  match s.bindings.lookup name with
  | some v => v.value
  | none => none

/-- What parts the fields of a text. -/
def separators (s : State) : List Char :=
  match s.valueOf? "IFS" with
  | some text => text.toList
  | none => [' ', '\t', '\n']

end State

namespace ShellM

def setStatus (status : Nat) : ShellM Unit := modify fun s => { s with status }

/-- Write octets to a stream, and tell whether that was possible. -/
def writeTo (stream? : Option Stream) (os : Octets) : ShellM Bool := do
  if os.isEmpty then return true
  match stream? with
  | none => return false
  | some stream =>
    if !(← get).machine.takes stream then return false
    -- The machine is taken out of the state, so that it can be changed in place.
    let machine ← modifyGet fun s => (s.machine, { s with machine := {} })
    modify fun s => { s with machine := machine.write os stream }
    return true

/-- Write octets to a descriptor, and tell whether that was possible. -/
def write (descriptor : Nat) (os : Octets) : ShellM Bool := do
  writeTo ((← get).stream? descriptor) os

/-- Complain in a line. -/
def complain (text : String) : ShellM Unit := do
  let s ← get
  let speaker :=
    match s.speaker with
    | some name => name ++ ": "
    | none => ""
  let _ ← write 2 (s.name ++ ": " ++ toString s.line ++ ": " ++ speaker ++ text ++ "\n").toList

def fail {α : Type} (text : String) : ShellM α := do
  complain text
  setStatus 2
  throw .error

/-- Write octets to the output, and give a status. -/
def say (os : Octets) : ShellM Nat := do
  if ← write 1 os then return 0
  complain (((← get).speaker.getD "") ++ ": I/O error")
  return 1

/-- Write a text to the output, and give a status. -/
def sayText (text : String) : ShellM Nat := say text.toList

def changeVariable (name : String) (change : Variable → Variable) : ShellM Unit := do
  unless isName name do fail (name ++ ": bad variable name")
  let s ← get
  let old := (s.bindings.lookup name).getD {}
  if old.isReadOnly then fail (name ++ ": is read only")
  modify fun s => { s with bindings := s.bindings.put name (change old) }

def setVariable (name value : String) : ShellM Unit := do
  let exportsAll := (← get).isOn 'a'
  changeVariable name fun old =>
    { old with value := some value, isExported := old.isExported || exportsAll }
  if name = "OPTIND" then
    modify fun s => { s with optionIndex := max 1 (value.toNat?.getD 1), optionPlace := none }

/-- A new pipe that holds a text. -/
def newPipe (text : Octets) : ShellM Nat :=
  modifyGet fun s =>
    let (number, machine) := s.machine.addPipe text
    (number, { s with machine })

/-- Let a descriptor lead to a stream. -/
def connect (descriptor : Nat) (stream : Stream) : ShellM Unit :=
  modify fun s => { s with
    descriptors := (descriptor, stream) :: s.descriptors.filter (·.1 ≠ descriptor) }

/-- Speak as a command. -/
def speaking {α : Type} (name : String) (act : ShellM α) : ShellM α := do
  let outer := (← get).speaker
  modify fun s => { s with speaker := some name }
  try act
  finally modify fun s => { s with speaker := outer }

def close (descriptor : Nat) : ShellM Unit :=
  modify fun s => { s with descriptors := s.descriptors.filter (·.1 ≠ descriptor) }

end ShellM

end Bindery.Formatter.Shell
