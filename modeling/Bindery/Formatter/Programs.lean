import Bindery.Formatter.Cat
import Bindery.Formatter.Echo
import Bindery.Formatter.Head
import Bindery.Formatter.Idle
import Bindery.Formatter.Tr
import Bindery.Formatter.Wc
import Bindery.Files.Tree

/-! The programs that there are, and where they lie.

A name with a slash is a path. Any other name is looked for in the folders of a search
path. Only what lies in the folders for programs can be run. -/
namespace Bindery.Formatter

open Files (Fault Place Tree)

/-- The programs that are not shells. -/
def plainPrograms : List (String × Program) :=
  [("cat", cat), ("echo", echo), ("false", refuse), ("head", head), ("sleep", sleep), ("tr", tr),
    ("true", succeed), ("wc", wc)]

def shellNames : List String := ["sh", "dash"]

def programFolders : List Place := [["usr", "bin"], ["bin"]]

def searchPath : String := "/usr/bin:/bin"

/-- A tree with the programs in it. -/
def withPrograms (t : Tree) : Tree :=
  programFolders.foldl (fun t folder =>
    (plainPrograms.map (·.1) ++ shellNames).foldl (fun t name =>
      t.set (folder ++ [name]) (.file "")) t) t

/-- What comes of looking for a program. -/
inductive Search where
  | program (name : String)
  /-- There is something that cannot be run. -/
  | denied
  | missing
deriving DecidableEq, Inhabited

def programAt (t : Tree) (path : String) : Search :=
  match t.locate path (Text.pieces '/' path) with
  | .ok ⟨place, some (.file _)⟩ =>
    let names := plainPrograms.map (·.1) ++ shellNames
    match place.getLast? with
    | some name =>
      if place.dropLast ∈ programFolders ∧ name ∈ names then .program name else .denied
    | none => .denied
  | .ok ⟨_, some _⟩ => .denied
  | _ => .missing

def candidates (search name : String) : List String :=
  (Text.pieces ':' search).map fun folder => if folder = "" then name else folder ++ "/" ++ name

/-- The first path at which a program of a certain name lies. -/
def findProgram? (t : Tree) (search name : String) : Option (String × String) :=
  (candidates search name).findSome? fun path =>
    match programAt t path with
    | .program program => some (path, program)
    | _ => none

end Bindery.Formatter
