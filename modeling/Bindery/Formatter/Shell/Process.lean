import Bindery.Formatter.Shell.Redirect
import Bindery.Formatter.Shell.Signalling

/-! Processes.

Nothing that a process does to itself is seen outside: only what all processes share
stays. A process ends with a status, and what it prepared for its end is done then. -/
namespace Bindery.Formatter.Shell

/-- A text to be run. -/
def State.reader (s : State) (text : List Char) : Reader :=
  { rest := text, nextDocument := s.nextDocument }

/-- Do what is prepared for the end of the process. -/
def runExitTrap (run : Reader → ShellM Unit) : ShellM Unit := do
  let s ← get
  match s.traps.lookup Signal.exit with
  | none => return
  | some text =>
    modify fun s => { s with traps := s.traps.filter (·.1 ≠ Signal.exit), loops := 0 }
    try
      run (s.reader text.toList)
      ShellM.setStatus s.status
    catch
      | .exit (some status) => ShellM.setStatus status
      | .error | .replaced => return
      | .killed process signal => throw (.killed process signal)
      | .exit none | .function | .loop _ _ => ShellM.setStatus s.status

/-- Do something up to the end of the process. -/
def untilEnd (run : Reader → ShellM Unit) (act : ShellM Unit) : ShellM Unit := do
  let isReplaced ←
    try
      act
      pure false
    catch
      | .killed process signal => throw (.killed process signal)
      | .replaced => pure true
      | .exit status? => do
        status?.forM ShellM.setStatus
        pure false
      | _ => pure false
  unless isReplaced do runExitTrap run

/-- Do something in a process of its own, and tell its status. -/
def inProcess (run : Reader → ShellM Unit) (act : ShellM Unit) : ShellM Nat := do
  let outer ← get
  modify fun s => { s with traps := s.traps.filter (·.2 = ""), loops := 0, pending := [] }
  try
    untilEnd run act
    return (← get).status % 256
  finally
    modify fun inner => { outer with machine := inner.machine }

def answerSignals (run : Reader → ShellM Unit) : ShellM Unit := do
  let signals := (← get).pending
  modify fun s => { s with pending := [] }
  signals.forM fun signal => do
    let s ← get
    match s.traps.lookup signal with
    | none | some "" => return
    | some text =>
      try run (s.reader text.toList)
      catch
        | .exit none => throw (.exit (some s.status))
        | leave => throw leave
      ShellM.setStatus s.status

/-- Say that a signal ended a process, and tell the status that this amounts to. -/
def mournProcess (signal : Signal) : ShellM Nat := do
  match signal.report? with
  | some text =>
    let _ ← ShellM.write 2 (text ++ "\n").toList
  | none => pure ()
  return 128 + signal

/-- Run a program that is not a shell, and tell its status. -/
def runPlain (program : Program) (name : String) (arguments : List String) : ShellM Nat := do
  let s ← get
  let input : Except Files.Fault Source :=
    match s.stream? 0 with
    | some stream => s.machine.readable stream
    | none => .error .badDescriptor
  let hasOutput := (s.stream? 1).any s.machine.takes
  let r := program
    { name, arguments, input, hasOutput, source := s.machine.source s.folder }
  match s.stream? 0 with
  | some stream => modify fun s => { s with machine := s.machine.leave r.unread stream }
  | none => pure ()
  r.written.forM fun (channel, os) => do
    let _ ← ShellM.write (if channel = .output then 1 else 2) os
  return r.status

/-! ### Shells that start -/

/-- What a shell runs. -/
inductive ShellInput where
  | text (cs : List Char)
  /-- What is read from its input. -/
  | input
deriving Inhabited

/-- What a shell runs that was started with arguments; its name and its arguments are set. -/
def startWith (arguments : List String) : ShellM ShellInput := do
  let (isText, _, rest) ← turnSwitches true arguments.length arguments
  let takeName (rest : List String) : ShellM Unit :=
    match rest with
    | name :: rest => modify fun s => { s with name, arguments := rest }
    | [] => pure ()
  match rest with
  | [] =>
    if isText then ShellM.fail "-c requires an argument"
    modify fun s => { s with switches := turn true 's' s.switches }
    return .input
  | first :: more =>
    if isText then
      takeName more
      return .text first.toList
    if (← get).isOn 's' then
      modify fun s => { s with arguments := rest }
      return .input
    -- A file that cannot be read is complained about under the name so far.
    let s ← get
    match s.machine.openToRead s.folder first with
    | .error fault => ShellM.fail (openingFault false first fault)
    | .ok (stream, machine) =>
      takeName rest
      match machine.readable stream with
      | .ok source => return .text source.content
      | .error _ => return .text []

def startingVariables (inherited : Entries String Variable) (directory : String) :
    Entries String Variable :=
  let own : Entries String Variable :=
    [("IFS", { value := some " \t\n" }), ("OPTIND", { value := some "1" }),
      ("PS1", { value := some "# " }), ("PS2", { value := some "> " }),
      ("PS4", { value := some "+ " }),
      ("PWD", { value := some directory, isExported := true })]
  own.foldl (fun bindings entry => bindings.put entry.1 entry.2) inherited

/-- What a program knows of the variables. -/
def State.inherited (s : State) : Entries String Variable :=
  (s.bindings.filter fun entry => entry.2.isExported && entry.2.value.isSome).map
    fun entry => (entry.1, { entry.2 with isReadOnly := false })

/-- A shell that is started by another one. -/
def State.started (s : State) (name : String) (process : Nat) : State where
  name
  process
  parents := s.process :: s.parents
  bindings := startingVariables s.inherited s.directory
  descriptors := s.descriptors
  directory := s.directory
  traps := s.traps.filter (·.2 = "")
  mask := s.mask
  machine := { s.machine with lastProcess := process }

end Bindery.Formatter.Shell
