import Bindery.CommandLine.Run
import Bindery.Files.Tree

/-! Runs in memory. -/
namespace Bindery.CommandLine

/-- What a run has written so far, and the files. -/
structure Session where
  tree : Files.Tree := .start
  out : String := ""
  err : String := ""
deriving Inhabited

namespace Session

/-- The host of a session, at whose place it is always the same time. -/
def host (time : String) : Host (StateM Session) where
  clock := pure time
  say line := modify fun s => { s with out := s.out ++ line ++ "\n" }
  complain line := modify fun s => { s with err := s.err ++ line ++ "\n" }
  read path := do return ((← get).tree.read? path).map Text.bytes
  makeFolder path := modifyGet fun s =>
    match s.tree.makeFolder path with
    | .ok tree => (.ok (), { s with tree })
    | .error e => (.error e, s)
  isFolder path := do return (← get).tree.isFolder path
  write path text := modifyGet fun s =>
    match s.tree.write path text with
    | .ok tree => (true, { s with tree })
    | .error _ => (false, s)

def ofFiles (files : List (String × String)) : Session :=
  let write : StateM Session Unit :=
    files.forM fun (path, text) => do let _ ← ((host "").writeFile path text).run
  (write.run {}).2

/-- Run the program on some files: its exit status, and the session afterwards. -/
def run (time : String) (surroundings : Surroundings) (files : List (String × String))
    (arguments : List String) : Nat × Session :=
  ((host time).run surroundings arguments).run (ofFiles files)

end Session

end Bindery.CommandLine
