import Bindery.Formatter.Shell.Expansion

/-! Redirections.

What a redirection leads to is worked out before any of the redirections of a command
happens. They happen from left to right, each seeing the ones before it, and what was
there before comes back when the command is done. -/
namespace Bindery.Formatter.Shell

/-- Where a redirection leads, all worked out. -/
inductive Target where
  | path (direction : Direction) (path : String)
  | copy (descriptor : Nat)
  | closed
  | text (os : Octets)
deriving DecidableEq, Inhabited

/-- A redirection, all worked out: the descriptor and where it leads. -/
abbrev Redirect : Type := Nat × Target

def expandRedirection (substitute : Option Command → ShellM String) :
    Redirection → ShellM Redirect
  | .to descriptor .copy target => do
    match ← expandText substitute target with
    | "-" => return (descriptor, .closed)
    | text =>
      match text.toList with
      | [c] =>
        if c.isDigit then return (descriptor, .copy (c.toNat - '0'.toNat))
        else ShellM.fail "Syntax error: Bad fd number"
      | _ => ShellM.fail "Syntax error: Bad fd number"
  | .to descriptor direction target => do
    return (descriptor, .path direction (← expandText substitute target))
  | .document descriptor number => do
    let document := ((← get).documents.lookup number).getD []
    return (descriptor, .text (bitText (← expand substitute false false document)).toList)

def namedDescriptor? (path : String) : Option Nat :=
  match path with
  | "/dev/stdin" => some 0
  | "/dev/stdout" => some 1
  | "/dev/stderr" => some 2
  | _ => if "/dev/fd/".toList.isPrefixOf path.toList then (path.drop 8).toNat? else none

/-- What is said about a file that cannot be opened. -/
def openingFault (toWrite : Bool) (path : String) (fault : Files.Fault) : String :=
  let reason : String :=
    match fault with
    | .missing | .notFolder => if toWrite then "Directory nonexistent" else "No such file"
    | fault => fault.reason
  "cannot " ++ (if toWrite then "create " else "open ") ++ path ++ ": " ++ reason

/-- Let a descriptor lead to an open file, if it could be opened. -/
def connectOpen (descriptor : Nat) (toWrite : Bool) (path : String)
    (opened : Except Files.Fault (Stream × Machine)) : ShellM Unit := do
  match opened with
  | .ok (stream, machine) =>
    modify fun s => { s with machine }
    ShellM.connect descriptor stream
  | .error fault => ShellM.fail (openingFault toWrite path fault)

/-- Let a redirection happen. -/
def redirect : Redirect → ShellM Unit
  | (descriptor, .closed) => ShellM.close descriptor
  | (descriptor, .copy other) => do
    if other ≠ descriptor then
      match (← get).stream? other with
      | some stream => ShellM.connect descriptor stream
      | none => ShellM.fail (toString other ++ ": Bad file descriptor")
  | (descriptor, .text os) => do
    let number ← ShellM.newPipe os
    ShellM.connect descriptor (.pipe number false)
  | (descriptor, .path direction path) => do
    let s ← get
    let toWrite : Bool := direction ≠ .read
    match namedDescriptor? path with
    | some other =>
      match s.stream? other with
      | some stream => ShellM.connect descriptor stream
      | none => ShellM.fail (openingFault toWrite path .missing)
    | none =>
      let writing : Machine.Writing :=
        match direction with
        | .append => .atEnd
        | .readWrite => .readingToo
        | .write => if s.isOn 'C' then .fresh else .anew
        | _ => .anew
      connectOpen descriptor toWrite path
        (if toWrite then s.machine.openToWrite s.folder path writing
        else s.machine.openToRead s.folder path)

/-- Let descriptors lead where they led before. -/
def reconnect (before : List (Nat × Option Stream)) : ShellM Unit :=
  before.reverse.forM fun
    | (descriptor, some stream) => ShellM.connect descriptor stream
    | (descriptor, none) => ShellM.close descriptor

/-- Let redirections happen, and tell whether all could. -/
def redirectAll (redirects : List Redirect) : ShellM Bool := do
  try
    redirects.forM redirect
    return true
  catch
    | .error => return false
    | leave => throw leave

/-- Do something while descriptors lead elsewhere. If they cannot, nothing is done. -/
def whileRedirected (redirects : List Redirect) (act : ShellM Unit) : ShellM Unit := do
  let s ← get
  let before := redirects.map fun r => (r.1, s.stream? r.1)
  try
    if ← redirectAll redirects then act
  finally
    reconnect before

end Bindery.Formatter.Shell
