import Bindery.Formatter.Programs

/-! What all processes of a run share.

There is the input that was given, what was written to the two outputs, pipes, and
files. A descriptor of a process leads to a stream; what is read through one process is
gone for all others that have the same stream. Processes run one after the other, so a pipe
holds all that was written into it before somebody reads it. -/
namespace Bindery.Formatter.Shell

open Files (Fault Place)

/-- What a descriptor leads to. -/
inductive Stream where
  | given
  | output
  | complaint
  /-- One of the two ends of a pipe. -/
  | pipe (number : Nat) (writes : Bool)
  | file (number : Nat)
  | folder
  | sink
deriving DecidableEq, Inhabited

/-- A pipe: what can be read, and what was written since, the last first. -/
structure Pipe where
  rest : Octets := []
  added : List Octets := []
deriving Inhabited

/-- A pipe of which everything can be read. -/
def Pipe.settled (p : Pipe) : Pipe :=
  if p.added.isEmpty then p else { rest := p.rest ++ p.added.reverse.flatten }

/-- An open file. -/
structure OpenFile where
  place : Place
  /-- Where the next character is read or written. -/
  offset : Nat := 0
  reads : Bool := false
  writes : Bool := false
  /-- Everything is written at the end. -/
  appends : Bool := false
deriving Inhabited

/-- What all processes share. -/
structure Machine where
  given : Octets := []
  /-- What was written, the last first. -/
  output : List Octets := []
  complaints : List Octets := []
  pipes : Array Pipe := #[]
  files : Array OpenFile := #[]
  /-- The files hold octets. -/
  tree : Files.Tree := withPrograms .start
  /-- The number of the process that was started last. -/
  lastProcess : Nat := 4711
deriving Inhabited

namespace Machine

/-- What a file holds. -/
def fileText (m : Machine) (place : Place) : Octets :=
  match m.tree.item? place with
  | some (.file text) => text.toList
  | _ => []

/-- Whether a stream takes what is written. -/
def takes (m : Machine) : Stream → Bool
  | .output | .complaint | .sink | .pipe _ true => true
  | .file number => (m.files[number]?).any (·.writes)
  | .given | .pipe _ false | .folder => false

/-- A text with octets written over a part of it; a gap is filled with zeros. -/
def overwritten (text os : Octets) (start : Nat) : Octets :=
  text.take start ++ List.replicate (start - text.length) '\x00' ++ os ++
    text.drop (start + os.length)

/-- Write through a stream that takes it. -/
def write (m : Machine) (os : Octets) : Stream → Machine
  | .output => { m with output := os :: m.output }
  | .complaint => { m with complaints := os :: m.complaints }
  | .pipe number true =>
    { m with pipes := m.pipes.modify number fun p => { p with added := os :: p.added } }
  | .file number =>
    match m.files[number]? with
    | none => m
    | some file =>
      let text := m.fileText file.place
      let start := if file.appends then text.length else file.offset
      { m with
        tree := m.tree.set file.place (.file (String.ofList (overwritten text os start)))
        files := m.files.set! number { file with offset := start + os.length } }
  | .sink | .given | .pipe _ false | .folder => m

/-- What can be read through a stream. -/
def readable (m : Machine) : Stream → Except Fault Source
  | .given => .ok ⟨m.given, false⟩
  | .sink => .ok ⟨[], false⟩
  | .pipe number false =>
    match m.pipes[number]? with
    | some p => .ok ⟨p.settled.rest, false⟩
    | none => .error .badDescriptor
  | .file number =>
    match m.files[number]? with
    | some file =>
      if file.reads then .ok ⟨(m.fileText file.place).drop file.offset, true⟩
      else .error .badDescriptor
    | none => .error .badDescriptor
  | .folder => .error .isFolder
  | .output | .complaint | .pipe _ true => .error .badDescriptor

/-- Leave so much to be read through a stream. -/
def leave (m : Machine) (unread : Octets) : Stream → Machine
  | .given => { m with given := unread }
  | .pipe number false => { m with pipes := m.pipes.set! number { rest := unread } }
  | .file number =>
    { m with files := m.files.modify number fun file =>
      { file with offset := (m.fileText file.place).length - unread.length } }
  | _ => m

/-- A new pipe that holds a text, and its number. -/
def addPipe (m : Machine) (text : Octets) : Nat × Machine :=
  (m.pipes.size, { m with pipes := m.pipes.push { rest := text } })

/-- The machine without the pipes from a number on, which nobody needs any more. -/
def dropPipes (m : Machine) (number : Nat) : Machine := { m with pipes := m.pipes.take number }

/-- Where a path leads, seen from a folder. -/
def locate (m : Machine) (folder : Place) (path : String) : Except Fault Files.Spot :=
  { m.tree with home := folder }.locate path (Text.pieces '/' path)

/-- What a file holds, or what the input holds, for the programs that open it by name. -/
def source (m : Machine) (folder : Place) (path : String) : Except Fault Source := do
  match ← m.locate folder path with
  | ⟨_, some (.file text)⟩ => return ⟨text.toList, true⟩
  | ⟨_, some .sink⟩ => return ⟨[], false⟩
  | ⟨_, some (.folder _)⟩ => throw .isFolder
  | ⟨_, none⟩ => throw .missing

def openFile (m : Machine) (file : OpenFile) : Stream × Machine :=
  (.file m.files.size, { m with files := m.files.push file })

def openToRead (m : Machine) (folder : Place) (path : String) : Except Fault (Stream × Machine) := do
  match ← m.locate folder path with
  | ⟨place, some (.file _)⟩ => return m.openFile { place, reads := true }
  | ⟨_, some .sink⟩ => return (.sink, m)
  | ⟨_, some (.folder _)⟩ => return (.folder, m)
  | ⟨_, none⟩ => throw .missing

/-- How a file is opened to write to it. -/
inductive Writing where
  /-- What it held is gone. -/
  | anew
  /-- It must not be there yet. -/
  | fresh
  | atEnd
  | readingToo
deriving DecidableEq, Inhabited

/-- Open a file to write to it. -/
def openToWrite (m : Machine) (folder : Place) (path : String) (writing : Writing) :
    Except Fault (Stream × Machine) := do
  let empty (m : Machine) (place : Place) : Machine :=
    { m with tree := m.tree.set place (.file "") }
  let file (place : Place) : OpenFile :=
    { place, writes := true, reads := writing = .readingToo, appends := writing = .atEnd }
  match ← m.locate folder path with
  | ⟨_, some (.folder _)⟩ => throw .isFolder
  | ⟨_, some .sink⟩ => return (.sink, m)
  | ⟨place, some (.file _)⟩ =>
    match writing with
    | .fresh => throw .occupied
    | .anew => return (empty m place).openFile (file place)
    | .atEnd | .readingToo => return m.openFile (file place)
  | ⟨place, none⟩ =>
    if (Text.pieces '/' path).getLast? = some "" then throw .isFolder
    return (empty m place).openFile (file place)

end Machine

end Bindery.Formatter.Shell
