import Bindery.Formatter.Shell.Process

/-! Running commands.

`perform` does what there is to do, by doing parts of it that nest less deeply: the depth
is given beforehand and is far more than a script that ends needs. What a command's words
stand for is worked out first, then where its redirections lead; then its descriptors are
redirected, its variables are set, and it is looked for and run. -/
namespace Bindery.Formatter.Shell

/-- What there is to do. -/
inductive Task where
  /-- Run a command. The flag tells that its status is looked at. -/
  | command (c : Command) (tested : Bool)
  | script (r : Reader) (tested : Bool)
  /-- Run what the input holds as a script. -/
  | input
deriving Inhabited

/-- How something is done. -/
abbrev Performer : Type := Task → ShellM Unit

/-- Run what a reader has left, not as part of a test. -/
def Performer.run (go : Performer) (r : Reader) : ShellM Unit := go (.script r false)

/-- Run commands and give what they write, without the ends of lines behind it. -/
def substitute (go : Performer) (body : Option Command) : ShellM String := do
  match body with
  | none => return ""
  | some c =>
    let number ← ShellM.newPipe []
    let status ← inProcess go.run do
      ShellM.connect 1 (.pipe number true)
      go (.command c false)
    let s ← get
    let text := (s.machine.pipes[number]?.map (·.settled.rest)).getD []
    modify fun s => { s with substituted := status, machine := s.machine.dropPipes number }
    let kept := (text.filter (· ≠ '\x00')).reverse.dropWhile (· = '\n')
    return String.ofList kept.reverse

/-! ### Commands of words -/

/-- A command as it is called: behind some words in front of it that only say how it is
looked for. -/
structure Call where
  words : List String
  /-- The words in front said how it is looked for. -/
  isPlain : Bool := false
  /-- Where it is looked for, if that was said. -/
  search? : Option String := none

/-- What is left of words behind `command` and its options, and whether they said where to
look; nothing if `command` itself has to run. -/
def behindCommand : List String → Option (List String × Bool)
  | [] => none
  | "--" :: rest => if rest.isEmpty then none else some (rest, false)
  | word :: rest =>
    match word.toList with
    | '-' :: c :: more =>
      if (c :: more).all (· = 'p') then (behindCommand rest).map fun found => (found.1, true)
      else none
    | _ => some (word :: rest, false)

/-- Take the words in front away that say how a command is looked for, at most so many. -/
def Call.within (s : State) : Nat → Call → Call
  | 0, call => call
  | n + 1, call =>
    match call.words with
    | "command" :: rest =>
      match s.meaning (!call.isPlain) (call.search?.getD s.search) "command", behindCommand rest with
      | .own _, some (words, isStandard) =>
        Call.within s n
          { words, isPlain := true
            search? := if isStandard then some searchPath else call.search? }
      | _, _ => call
    | _ => call

/-- A command as it is called by words. -/
def State.call (s : State) (words : List String) : Call :=
  Call.within s words.length { words }

/-- Commands whose arguments can be assignments. -/
def declaringNames : List String := ["export", "readonly", "local", "alias"]

/-- Work out words from left to right, behind those that are given. -/
def expandWords (go : Performer) (before : List String) : List Word → ShellM (List String)
  | [] => return before
  | w :: rest => do
    let s ← get
    let declares : Bool :=
      !before.isEmpty && (s.call before).words.head?.any (· ∈ declaringNames)
    let fields ←
      match if declares then assigned? w else none with
      | some (name, value) => do
        pure [name ++ "=" ++ (← expandValue (substitute go) value)]
      | none => expandFields (substitute go) w
    expandWords go (before ++ fields) rest

/-- Assign values, and give the assignments as they are traced. -/
def assignAll (go : Performer) (isExported : Bool) : List Word → ShellM (List String)
  | [] => return []
  | w :: rest => do
    match assigned? w with
    | none => assignAll go isExported rest
    | some (name, value) =>
      let value ← expandValue (substitute go) value
      ShellM.setVariable name value
      if isExported then ShellM.changeVariable name ({ · with isExported := true })
      return (name ++ "=" ++ value) :: (← assignAll go isExported rest)

/-- Show a command before it is run. -/
def trace (go : Performer) (stream? : Option Stream) (words : List String) : ShellM Unit := do
  let s ← get
  if s.isOn 'x' then
    let text := ((s.valueOf? "PS4").getD "").toList
    let pieces : List Piece :=
      match readPieces (readSubstitution (10 * text.length + 100)) (text.length + 1) .document
          [] false { rest := text } with
      | .ok ((pieces, _), _) => pieces
      | .error _ => text.map (.char · true)
    modify fun s => { s with switches := turn false 'x' s.switches }
    let shown := bitText (← expand (substitute go) false false pieces)
    modify fun s => { s with switches := turn true 'x' s.switches }
    let _ ← ShellM.writeTo stream? (shown ++ Text.join " " words ++ "\n").toList

def callFunction (go : Performer) (body : Command) (arguments : List String)
    (tested : Bool) : ShellM Unit := do
  let outer ← get
  modify fun s => { s with
    arguments, optionIndex := 1, optionPlace := none, loops := 0, locals := [] :: s.locals }
  try
    go (.command body tested)
  catch
    | .function => pure ()
    | leave => throw leave
  finally
    ((← get).locals.headD []).forM fun (name, before) => restoreVariable name before
    modify fun s => { s with
      arguments := outer.arguments, optionIndex := outer.optionIndex
      optionPlace := outer.optionPlace, loops := outer.loops, locals := outer.locals }

/-- Be a shell that was started with arguments, to the end of its process. -/
def runStarted (go : Performer) (arguments : List String) : ShellM Unit :=
  untilEnd go.run do
    match ← startWith arguments with
    | .text cs => go.run ((← get).reader cs)
    | .input => go .input

/-- Run a program, and tell its status. -/
def runProgram (go : Performer) (program name : String) (arguments : List String) :
    ShellM Nat := do
  match plainPrograms.lookup program with
  | some plain => runPlain plain name arguments
  | none =>
    let outer ← get
    let process := outer.machine.lastProcess + 1
    modify fun s => s.started name process
    try
      runStarted go arguments
      return (← get).status % 256
    catch
      | .killed process' signal => do
        if process' ≠ process then throw (.killed process' signal)
        modify fun inner => { outer with machine := inner.machine }
        mournProcess signal
      | _ => return (← get).status % 256
    finally
      modify fun inner => { outer with machine := inner.machine }

/-- Say that a command cannot be run, and tell the status that this amounts to. -/
def refuseCommand (name : String) (isThere : Bool) : ShellM Nat := do
  ShellM.complain (name ++ if isThere then ": Permission denied" else ": not found")
  return if isThere ∧ name ≠ "" then 126 else 127

/-! ### Commands of the shell's own that run others -/

def runArguments (go : Performer) (tested : Bool) : Own := fun arguments => do
  let text := (Text.join " " arguments).toList
  go (.script ((← get).reader text) tested)
  return (← get).status

def runFile (go : Performer) : Own := fun arguments => do
  match ← withoutOptions arguments with
  | [] => return 0
  | name :: _ =>
    let s ← get
    let isThere (path : String) : Bool := s.item? path matches some (.file _)
    let path ←
      if isPath name then pure name
      else
        match (candidates s.search name).find? isThere with
        | some path => pure path
        | none => ShellM.fail (name ++ ": not found")
    match s.machine.source s.folder path with
    | .error fault => ShellM.fail (openingFault false path fault)
    | .ok source =>
      ShellM.speaking path do
        try go (.script (s.reader source.content) false)
        catch
          | .function => pure ()
          | leave => throw leave
        return (← get).status

/-- Let a program take the place of the shell. -/
def becomeProgram (go : Performer) : Own := fun arguments => do
  match ← withoutOptions arguments with
  | [] => return 0
  | name :: arguments =>
    let s ← get
    match s.program s.search name with
    | .program _ program =>
      ShellM.setStatus (← runProgram go program name arguments)
      throw .replaced
    | found =>
      let isThere : Bool := found matches .denied
      throw (.exit (some (← refuseCommand name isThere)))

/-- Tell what a name stands for. -/
def tellCommand : Own := fun arguments => do
  let (options, names) ← LetterTable.read { letters := ['p', 'v', 'V'] } arguments
  let has (letter : Char) : Bool := options.any (·.1 = letter)
  match names with
  | name :: _ =>
    if has 'v' || has 'V' then
      describe (has 'V') (if has 'p' then some searchPath else none) name
    else return 0
  | [] => return 0

/-- Leave loops, or go on with the next turn of one. -/
def leaveLoops (goesOn : Bool) : Own := fun arguments => do
  let levels ← arguments.head?.elim (pure 1) fun text => do
    let n ← countArgument text
    if n = 0 then ShellM.fail ("Illegal number: " ++ text)
    pure n
  let loops := (← get).loops
  if 0 < min levels loops then
    ShellM.setStatus 0
    throw (.loop (min levels loops) goesOn)
  return 0

/-- Leave a function or a file, with a status. -/
def leaveFunction : Own := fun arguments => do
  arguments.head?.forM fun text => do ShellM.setStatus (← countArgument text)
  throw .function

def endShell : Own := fun arguments => do
  match arguments.head? with
  | none => throw (.exit none)
  | some text => throw (.exit (some (← countArgument text)))

/-- What a command of the shell's own does. -/
def own (go : Performer) (tested : Bool) (name : String) : Own :=
  match name with
  | "." => runFile go
  | ":" | "true" => fun _ => return 0
  | "[" => tellCondition true
  | "alias" => tellAliases
  | "bg" | "fg" => noJob
  | "break" => leaveLoops false
  | "cd" => changeFolder
  | "command" => tellCommand
  | "continue" => leaveLoops true
  | "echo" => tellArguments
  | "eval" => runArguments go tested
  | "exec" => becomeProgram go
  | "exit" => endShell
  | "export" => exportVariables
  | "false" => fun _ => return 1
  | "getopts" => takeOption
  | "hash" => tellFound
  | "kill" => sendSignals
  | "local" => localVariables
  | "printf" => tellByFormat
  | "pwd" => tellFolder
  | "read" => readVariables
  | "readonly" => keepVariables
  | "return" => leaveFunction
  | "set" => setSwitches
  | "shift" => dropArguments
  | "test" => tellCondition false
  | "times" => tellTimes
  | "trap" => prepare
  | "type" => tellMeanings
  | "ulimit" => tellLimit
  | "umask" => tellMask
  | "unalias" => forgetAliases
  | "unset" => removeNames
  | "wait" => awaitProcesses
  | _ => fun _ => return 0

def runCall (go : Performer) (tested isSpecial : Bool) (call : Call) : ShellM Unit := do
  let s ← get
  match call.words with
  | [] => ShellM.setStatus s.substituted
  | name :: arguments =>
    match s.meaning (!call.isPlain) (call.search?.getD s.search) name with
    | .function body => callFunction go body arguments tested
    | .own _ =>
      try
        ShellM.setStatus (← ShellM.speaking name (own go tested name arguments))
      catch
        | .error => if isSpecial then throw .error
        | leave => throw leave
    | .program path program =>
      remember name path
      ShellM.setStatus (← runProgram go program name arguments)
    | .denied => ShellM.setStatus (← refuseCommand name true)
    | .missing => ShellM.setStatus (← refuseCommand name false)

def runSimple (go : Performer) (tested : Bool) (assignments words : List Word)
    (redirections : List Redirection) : ShellM Unit := do
  modify fun s => { s with substituted := 0 }
  let words ← expandWords go [] words
  let s ← get
  let call := s.call words
  let isOwnSpecial : Bool :=
    match call.words with
    | name :: _ => !call.isPlain && name ∈ specialNames
    | [] => false
  let isLocal := !words.isEmpty && !isOwnSpecial
  let isExec : Bool := call.words.head? = some "exec"
  let redirects ← redirections.mapM (expandRedirection (substitute go))
  let s ← get
  let streams := redirects.map fun r => (r.1, s.stream? r.1)
  let names := (assignments.filterMap assigned?).map (·.1)
  let bindings := names.map fun name => (name, s.bindings.lookup name)
  try
    if ← redirectAll redirects then
      let traces ← assignAll go (isLocal || (isExec && 1 < call.words.length)) assignments
      trace go (s.stream? 2) (traces ++ words)
      runCall go tested isOwnSpecial call
    else if isOwnSpecial then throw .error
  finally
    unless isExec do reconnect streams
    if isLocal then
      bindings.forM fun (name, before) => restoreVariable name before

/-! ### Loops -/

/-- What comes of an act. -/
abbrev Outcome : Type := Except Leave Unit × State

/-- Do something, from a certain state on. -/
def ShellM.outcome (act : ShellM Unit) (s : State) : Outcome := act.run.run s

/-- How a loop goes on after its body. -/
inductive LoopStep where
  | next
  | stop
  | leave (l : Leave)

/-- How a loop goes on when something in it was left. -/
def Leave.loopStep : Leave → LoopStep
  | .loop levels goesOn =>
    if levels ≤ 1 then if goesOn then .next else .stop
    else .leave (.loop (levels - 1) goesOn)
  | leave => .leave leave

/-- Go through a loop as long as its test comes out as it should, at most so many times. -/
def turnAround (go : Performer) (inverted tested : Bool) (test body : Command) :
    Nat → Nat → State → Outcome
  | 0, status, s => (.ok (), { s with status })
  | n + 1, status, s =>
    match (go (.command test true)).outcome s with
    | (.error leave, s) =>
      match leave.loopStep with
      | .next => turnAround go inverted tested test body n status s
      | .stop => (.ok (), { s with status })
      | .leave leave => (.error leave, s)
    | (.ok (), s) =>
      if (s.status = 0) = inverted then (.ok (), { s with status })
      else
        match (go (.command body tested)).outcome s with
        | (.error leave, s) =>
          match leave.loopStep with
          | .next => turnAround go inverted tested test body n s.status s
          | .stop => (.ok (), s)
          | .leave leave => (.error leave, s)
        | (.ok (), s) => turnAround go inverted tested test body n s.status s

/-- Go through a loop with a variable that takes one value after the other. -/
def turnThrough (go : Performer) (tested : Bool) (name : String) (body : Command) :
    List String → State → Outcome
  | [], s => (.ok (), s)
  | value :: rest, s =>
    let turn : ShellM Unit := do
      ShellM.setVariable name value
      go (.command body tested)
    match turn.outcome s with
    | (.error leave, s) =>
      match leave.loopStep with
      | .next => turnThrough go tested name body rest s
      | .stop => (.ok (), s)
      | .leave leave => (.error leave, s)
    | (.ok (), s) => turnThrough go tested name body rest s

def loopLimit : Nat := 100000000

def inLoop (turns : State → Outcome) : ShellM Unit := do
  let loops := (← get).loops
  modify fun s => { s with loops := loops + 1 }
  try (turns : ShellM Unit)
  finally modify fun s => { s with loops }

/-! ### Compound commands -/

/-- Run the commands of a pipeline, each with what the one before it wrote. -/
def runPiped (go : Performer) (tested : Bool) : Option Nat → List Command → ShellM Unit
  | _, [] => return
  | input?, c :: rest => do
    let output? ← if rest.isEmpty then pure none else some <$> ShellM.newPipe []
    let status ← inProcess go.run do
      input?.forM fun number => ShellM.connect 0 (.pipe number false)
      output?.forM fun number => ShellM.connect 1 (.pipe number true)
      go (.command c tested)
    ShellM.setStatus status
    runPiped go tested output? rest

/-- Run the first branch that has a pattern that a text matches. -/
def runBranch (go : Performer) (tested : Bool) (text : List Char) :
    List (List Word × Option Command) → ShellM Unit
  | [] => ShellM.setStatus 0
  | (patterns, body) :: rest => do
    let fits ← patterns.foldlM (fun fits w => do
      if fits then return true
      return isMatch (← expandPattern (substitute go) w) text) false
    if fits then
      match body with
      | some c => go (.command c tested)
      | none => ShellM.setStatus 0
    else runBranch go tested text rest

def runCommand (go : Performer) (tested : Bool) : Command → ShellM Unit
  | .simple line assignments words redirections => do
    modify fun s => { s with line }
    runSimple go tested assignments words redirections
  | .negated c => do
    go (.command c true)
    modify fun s => { s with status := if s.status = 0 then 1 else 0 }
  | .pipeline cs => runPiped go tested none cs
  | .both a b => do
    go (.command a true)
    if (← get).status = 0 then go (.command b tested)
  | .either a b => do
    go (.command a true)
    if (← get).status ≠ 0 then go (.command b tested)
  | .sequence a b => do
    go (.command a tested)
    go (.command b tested)
  | .background c => do
    let process := (← get).machine.lastProcess + 1
    modify fun s => { s with machine := { s.machine with lastProcess := process } }
    let status ← inProcess go.run do
      ShellM.connect 0 .sink
      go (.command c false)
    modify fun s => { s with jobs := (process, status) :: s.jobs, status := 0 }
  | .subshell line body redirections => do
    modify fun s => { s with line }
    let redirects ← redirections.mapM (expandRedirection (substitute go))
    let status ← inProcess go.run do
      redirects.forM redirect
      body.forM fun c => go (.command c tested)
    ShellM.setStatus status
  | .redirected line c redirections => do
    modify fun s => { s with line }
    let redirects ← redirections.mapM (expandRedirection (substitute go))
    whileRedirected redirects (go (.command c tested))
  | .choose test body otherwise => do
    go (.command test true)
    if (← get).status = 0 then go (.command body tested)
    else
      match otherwise with
      | some c => go (.command c tested)
      | none => ShellM.setStatus 0
  | .loop inverted test body =>
    inLoop (turnAround go inverted tested test body loopLimit 0)
  | .each line name words body => do
    modify fun s => { s with line }
    let values := (← words.mapM (expandFields (substitute go))).flatten
    ShellM.setStatus 0
    inLoop (turnThrough go tested name body values)
  | .select line word branches => do
    modify fun s => { s with line }
    let text ← expandText (substitute go) word
    runBranch go tested text.toList branches
  | .define _ name body =>
    modify fun s => { s with functions := s.functions.put name body, status := 0 }

/-- Whether a failure of a command ends a shell that ends with a failure. -/
def Command.counts : Command → Bool
  | .simple .. | .pipeline _ | .subshell .. => true
  | _ => false

/-! ### Scripts -/

/-- A reader that knows what the shell knows. -/
def State.prepared (s : State) (r : Reader) : Reader :=
  { r with documents := [], nextDocument := s.nextDocument, aliases := s.aliases, busy := [] }

/-- Take a line from a reader. Texts that follow the line are kept. -/
def takeLine (r : Reader) : ShellM (ScriptLine × Reader) := do
  let fuel := 10 * r.rest.length + 100
  let s ← get
  match nextCommand fuel (s.prepared r) with
  | .error fault =>
    modify fun s => { s with line := fault.line }
    ShellM.fail ("Syntax error: " ++ fault.text)
  | .ok (line, r) =>
    modify fun s => { s with
      documents := r.documents ++ s.documents, nextDocument := r.nextDocument }
    return (line, r)

/-- Run what a reader has left, at most so many lines. The flag tells that something has
been run. -/
def runReader (go : Performer) (tested : Bool) : Nat → Bool → Reader → ShellM Unit
  | 0, _, _ => return
  | n + 1, hasRun, r => do
    match ← takeLine r with
    | (.endOfScript, _) => unless hasRun do ShellM.setStatus 0
    | (.nothing, r) => runReader go tested n hasRun r
    | (.command c, r) =>
      go (.command c tested)
      runReader go tested n true r

/-- How much of its input a shell reads at once. -/
def inputBlock : Nat := 8192

/-- Run what the input holds, at most so many lines. A shell reads its input in blocks; what
follows the block that it has come to is left to its commands. The second number tells how
much of the script has been read but not yet used. -/
def runInput (go : Performer) : Nat → Nat → Reader → ShellM Unit
  | 0, _, _ => return
  | n + 1, held, r => do
    let s ← get
    let stream := (s.stream? 0).getD .sink
    let behind : Octets :=
      match s.machine.readable stream with
      | .ok source => source.content
      | .error _ => []
    let text := r.rest.take held ++ behind
    let count := text.length
    let keep (left : Nat) : ShellM Nat := do
      -- What is used beyond what was held comes in whole blocks.
      let used := count - left
      let blocks := (used - held + inputBlock - 1) / inputBlock
      let held' := min count (held + blocks * inputBlock) - used
      modify fun s => { s with
        machine := s.machine.leave (behind.drop (blocks * inputBlock)) stream }
      return held'
    match nextCommand (10 * count + 100) (s.prepared { r with rest := text }) with
    | .error fault => do
      let _ ← keep 0
      modify fun s => { s with line := fault.line }
      ShellM.fail ("Syntax error: " ++ fault.text)
    | .ok (line, r) => do
      modify fun s => { s with
        documents := r.documents ++ s.documents, nextDocument := r.nextDocument }
      let held ← keep r.rest.length
      match line with
      | .endOfScript => return
      | .nothing => runInput go n held r
      | .command c => do
        go (.command c false)
        runInput go n held r

/-! ### Everything -/

/-- Do what there is to do, by a way to do what nests less deeply. -/
def step (go : Performer) : Task → ShellM Unit
  | .command c tested => do
    if (← get).isOn 'n' then return
    runCommand go tested c
    answerSignals go.run
    let s ← get
    if c.counts ∧ !tested ∧ s.isOn 'e' ∧ s.status ≠ 0 then throw (.exit (some s.status))
  | .script r tested => runReader go tested (r.rest.length + 1) false r
  | .input => runInput go loopLimit 0 { rest := [] }

/-- Do what there is to do, nesting so deeply at most. A process that runs out of room gets
a signal. -/
def perform : Nat → Performer
  | 0 => fun _ => do
    let s ← get
    throw (.killed s.process Signal.segmentation)
  | depth + 1 => step (perform depth)

def depthLimit : Nat := 4000

/-- A shell that is started by a program that is not a shell. -/
def starting (name : String) (text : Octets) : State where
  name
  bindings := startingVariables
    [("PATH", { value := some searchPath, isExported := true })] "/home"
  machine := { given := text }

def runShell (name : String) (arguments : List String) (text : Octets) : Run :=
  let (outcome, s) := (runStarted (perform depthLimit) arguments).outcome (starting name text)
  let status :=
    match outcome with
    | .error (.killed _ signal) => 128 + signal
    | _ => s.status % 256
  { status
    written := [(.output, s.machine.output.reverse.flatten),
      (.complaint, s.machine.complaints.reverse.flatten)]
    unread := s.machine.given }

end Bindery.Formatter.Shell
