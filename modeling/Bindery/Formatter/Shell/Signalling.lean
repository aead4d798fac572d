import Bindery.Formatter.Shell.Naming

/-! Commands of the shell's own about processes and signals.

Whatever runs in the background has ended when it is asked about, so all that is left of
it is its status. A signal to the shell itself waits until the command has ended, unless
nothing is prepared for it. -/
namespace Bindery.Formatter.Shell

/-- Give a process a signal; false if there is no such process. -/
def signalTo (process : Nat) (signal : Signal) : ShellM Bool := do
  let s ← get
  if process = s.process then
    match if signal = Signal.kill then none else s.traps.lookup signal with
    | some _ => modify fun s => { s with pending := s.pending ++ [signal] }
    | none => unless signal.isIgnored do throw (.killed process signal)
    return true
  if process ∈ s.parents then
    unless signal.isIgnored do throw (.killed process signal)
    return true
  return false

def killUsage : String :=
  "Usage: kill [-s sigspec | -signum | -sigspec] [pid | job]... or\nkill -l [exitstatus]"

/-- The signal that a text stands for, the end of the process not being one. -/
def realSignal? (text : String) : Option Signal :=
  (Signal.parse? text).filter fun signal => signal ≠ Signal.exit || text.all Char.isDigit

/-- Tell the name of a signal, or all names. -/
def tellSignals : Own := fun arguments => do
  match arguments with
  | [] => ShellM.sayText (Text.join "" (("0" :: Signal.names.drop 1).map (· ++ "\n")))
  | text :: _ =>
    let n ← countArgument text
    let signal := if 128 < n then n - 128 else n
    if 0 < signal ∧ signal < Signal.names.length then ShellM.sayText (Signal.name signal ++ "\n")
    else ShellM.fail ("invalid signal number or exit status: " ++ text)

def sendSignals : Own := fun arguments => do
  let first? : Option Signal :=
    arguments.head?.bind fun text =>
      if text.toList.head? = some '-' then realSignal? (text.drop 1).toString else none
  let (signal?, lists, rest) ←
    match first? with
    | some signal => pure (some signal, false, arguments.tail)
    | none => do
      let (options, rest) ← LetterTable.read { letters := ['l'], valued := ['s'] } arguments
      let signal? ← options.foldlM (fun signal? (letter, value) => do
        if letter ≠ 's' then return signal?
        match realSignal? value with
        | some signal => return some signal
        | none => ShellM.fail ("invalid signal number or name: " ++ value)) (none : Option Signal)
      pure (signal?, options.any (·.1 = 'l'), rest)
  if lists then
    if signal?.isSome then ShellM.fail killUsage
    return ← tellSignals rest
  if rest.isEmpty then ShellM.fail killUsage
  let statuses ← rest.mapM fun text => do
    if text.toList.head? = some '%' then ShellM.fail ("No such job: " ++ text)
    let process ← countArgument text
    if ← signalTo process (signal?.getD Signal.terminate) then return 0
    ShellM.complain "No such process\n"
    return 1
  return if statuses.all (· = 0) then 0 else 1

/-- Prepare for signals, or tell what is prepared. -/
def prepare : Own := fun arguments => do
  let arguments ← withoutOptions arguments
  if arguments.isEmpty then
    let traps := (← get).traps.mergeSort fun a b => a.1 ≤ b.1
    return ← ShellM.sayText (Text.join "" (traps.map fun (signal, text) =>
      "trap -- " ++ inApostrophes text ++ " " ++ signal.name ++ "\n"))
  let isNumber (text : String) : Bool := text.all Char.isDigit && (Signal.parse? text).isSome
  let (action, names) : String × List String :=
    match arguments with
    | first :: second :: rest =>
      if isNumber first then ("-", arguments) else (first, second :: rest)
    | names => ("-", names)
  let rec go : List String → ShellM Nat
    | [] => return 0
    | text :: rest =>
      match Signal.parse? text with
      | none => do
        let _ ← ShellM.write 2 ("trap: " ++ text ++ ": bad trap\n").toList
        return 1
      | some signal => do
        modify fun s => { s with
          traps :=
            if action = "-" then s.traps.filter (·.1 ≠ signal) else s.traps.put signal action }
        go rest
  go names

/-- Tell the status of a process that ran in the background. -/
def awaitProcesses : Own := fun arguments => do
  let arguments ← withoutOptions arguments
  arguments.foldlM (fun _ text => do
    if text.toList.head? = some '%' then ShellM.fail ("No such job: " ++ text)
    let process ← countArgument text
    return ((← get).jobs.lookup process).getD 127) 0

/-- There are no jobs to bring anywhere. -/
def noJob : Own := fun _ => ShellM.fail "No current job"

end Bindery.Formatter.Shell
