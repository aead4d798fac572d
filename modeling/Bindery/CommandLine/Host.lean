import Bindery.Files.Fault
import Bindery.Files.Path
import Bindery.Text.Utf8

/-! What a run of the program needs from the outside.

A host tells the time, takes lines for its two outputs, and reads and writes files. The
commands are written for any host, so what they do can be looked at in memory. -/
namespace Bindery.CommandLine

open Files (Fault)

/-- The operations of a host, each an action of `m`. -/
structure Host (m : Type → Type) where
  /-- The time of day, with two digits each for hour, minute and second. -/
  clock : m String
  /-- Write a line to the output. -/
  say : String → m Unit
  /-- Write a line to the output for complaints. -/
  complain : String → m Unit
  /-- Read a file, if that is possible. -/
  read : String → m (Option Text.Bytes)
  makeFolder : String → m (Except Fault Unit)
  isFolder : String → m Bool
  /-- Write a file, and tell whether that was possible. -/
  write : String → String → m Bool

namespace Host

variable {m : Type → Type} [Monad m] (host : Host m)

/-- Make one folder, unless it is there already. -/
def ensureFolder (path : String) : m (Except Fault Unit) := do
  match ← host.makeFolder path with
  | .ok () => return .ok ()
  | .error e => return if ← host.isFolder path then .ok () else .error e

/-- Make a folder and those that it lies in, at most `depth` of them. A missing folder is
made only when the one below it turns out to need it. -/
def makeFoldersWithin : Nat → String → m (Except Fault Unit)
  | 0, _ => return .error .noRoot
  | depth + 1, path => do
    if path = "" then return .ok ()
    match ← host.ensureFolder path with
    | .error .missing =>
      match Files.parent? path with
      | none => return .error .noRoot
      | some parent =>
        match ← makeFoldersWithin depth parent with
        | .ok () => host.ensureFolder path
        | .error e => return .error e
    | done => return done

/-- Make a folder and those that it lies in. -/
def makeFolders (path : String) : m (Except Fault Unit) :=
  host.makeFoldersWithin (path.length + 2) path

end Host

end Bindery.CommandLine
