import Bindery.Formatter.Shell.Evaluation
import Bindery.Proofs.Formatter.Processes

/-! Commands of words.

Whatever a command nests, if doing that advances then so does the command: its words are worked out
and its values are assigned, then a function, a command of the shell's own or a program runs. What
runs in a process of its own leaves only the machine. The pipe of a substitution is gone after it,
and with it the pipes that were made meanwhile (`Advances.substitute`). -/
namespace Bindery.Formatter.Shell

/-- Only pipes that were made since are gone. -/
theorem Later.dropPipes {m m' : Machine} (h : Later m m') :
    Later m (m'.dropPipes m.pipes.size) :=
  { h with pipes := by simp [Machine.dropPipes, h.pipes] }

section Commands
variable {go : Performer} {s : State} {tested : Bool}

/-- A substitution leaves as many pipes as there were. -/
theorem Advances.substitute (hgo : ∀ t, Advances (go t)) (body : Option Command) :
    Advances (substitute go body) := by
  cases body with
  | none => exact .pure _
  | some c =>
    intro s hs
    let piped : State := { s with machine := (s.machine.addPipe []).2 }
    let act : ShellM Unit := do
      ShellM.connect 1 (.pipe s.machine.pipes.size true)
      go (.command c false)
    have hpiped : Goes s piped := .of_later hs (s.machine.later_addPipe []) rfl
    have hran : AdvancesFrom piped (Shell.inProcess go.run act) := by
      refine .inProcess hpiped.sound (fun _ => hgo _) fun s' hgoes => ?_
      refine (AdvancesFrom.connect hgoes.sound ?_).bind fun _ s'' hgoes' => hgo _ _ hgoes'.sound
      exact (s.machine.has_addPipe [] true).later hgoes.later
    obtain ⟨machine, hkept⟩ := state_inProcess go.run act piped
    show Goes s ((Shell.inProcess go.run act >>= _).run.run piped).2
    rw [ExceptT.run_bind, StateT.run_bind]
    unfold AdvancesFrom at hran
    generalize (Shell.inProcess go.run act).run.run piped = done at hran hkept ⊢
    obtain ⟨_ | status, s'⟩ := done
    · exact hpiped.trans hran
    · obtain rfl : s' = { piped with machine } := hkept
      exact .of_later hs (hpiped.later.trans hran.later).dropPipes rfl

namespace Advances

theorem expandWords (hgo : ∀ t, Advances (go t)) (before : List String) (ws : List Word) :
    Advances (expandWords go before ws) := by
  induction ws generalizing before with
  | nil => exact .pure _
  | cons w rest ih =>
    refine .bind .get fun s => ?_
    extract_lets declares join
    have hjoin : ∀ fields, Advances (join fields) := fun fields => ih _
    split
    · exact .bind (.expandValue (substitute hgo) _) fun _ => hjoin _
    · exact .bind (.expandFields (substitute hgo) _) hjoin

theorem assignAll (hgo : ∀ t, Advances (go t)) (isExported : Bool) (ws : List Word) :
    Advances (assignAll go isExported ws) := by
  induction ws with
  | nil => exact .pure _
  | cons w rest ih =>
    unfold Shell.assignAll
    split
    · exact ih
    · refine .bind (.expandValue (substitute hgo) _) fun _ => .bind (.setVariable _ _) fun _ => ?_
      exact .doneIf (.changeVariable _ _) fun _ => .bind ih fun _ => .pure _

theorem trace (hgo : ∀ t, Advances (go t)) (stream? : Option Stream) (words : List String) :
    Advances (trace go stream? words) := by
  refine .bind .get fun s => .ite ?_ (.pure _)
  refine .bind (.modify fun _ => ⟨rfl, rfl⟩) fun _ => ?_
  refine .bind (.expand (substitute hgo) _ _ _) fun _ => ?_
  refine .bind (.modify fun _ => ⟨rfl, rfl⟩) fun _ => ?_
  exact .bind (.writeTo _ _) fun _ => .pure _

theorem callFunction (hgo : ∀ t, Advances (go t)) (body : Command) (arguments : List String) :
    Advances (callFunction go body arguments tested) := by
  refine .bind .get fun outer => .bind (.modify fun _ => ⟨rfl, rfl⟩) fun _ => .tryFinally ?_ ?_
  · refine .tryCatch (hgo _) fun leave => ?_
    split
    · exact .pure _
    · exact .throw _
  · refine .bind .get fun s => .bind (.forM fun _ => .restoreVariable _ _) fun _ => ?_
    exact .modify fun _ => ⟨rfl, rfl⟩

theorem runStarted (hgo : ∀ t, Advances (go t)) (arguments : List String) :
    Advances (runStarted go arguments) := by
  refine fun s hs => .untilEnd (fun _ => hgo _) (bind (.startWith _) (fun found => ?_) s hs)
  split
  · exact .bind .get fun _ => hgo _
  · exact hgo _

/-- A shell that runs in place of a program starts with what the one that started it leads to, and
leaves only the machine. -/
theorem runProgram (hgo : ∀ t, Advances (go t)) (program name : String) (arguments : List String) :
    Advances (runProgram go program name arguments) := by
  unfold Shell.runProgram
  split
  · next plain hplain =>
    exact .runPlain (suffix_pending_of_lookup hplain) name arguments
  · intro outer hs
    have hstart : Goes outer (outer.started name (outer.machine.lastProcess + 1)) :=
      .of_later hs { Later.refl outer.machine with lastProcess := Nat.le_succ _ } rfl
    refine .get_bind (.modify_bind hstart (.block (.tryFinally (.tryCatch ?_ ?_) ?_)))
    · refine .bind (runStarted hgo arguments _ hstart.sound) ?_
      exact fun _ s hgoes => Advances.bind .get (fun _ => .given _) s hgoes.sound
    · intro leave s hgoes
      split
      · extract_lets mourn
        have hback := Goes.back hs (hstart.later.trans hgoes.later)
        split
        · exact .refl hgoes.sound
        · exact .modify_bind hback (Advances.atEnd (.mournProcess _) _ hback.sound)
      · exact Advances.bind .get (fun _ => .given _) s hgoes.sound
    · exact fun inner hgoes => Goes.back hs (hstart.later.trans hgoes.later)

theorem refuseCommand (name : String) (isThere : Bool) : Advances (refuseCommand name isThere) :=
  .bind (.complain _) fun _ => .pure _

/-! ### Commands of the shell's own that run others -/

theorem runArguments (hgo : ∀ t, Advances (go t)) (arguments : List String) :
    Advances (runArguments go tested arguments) :=
  .bind .get fun _ => .bind (hgo _) fun _ => .bind .get fun _ => .pure _

theorem runFile (hgo : ∀ t, Advances (go t)) (arguments : List String) :
    Advances (runFile go arguments) := by
  refine .bind (.withoutOptions _) fun names => ?_
  split
  · exact .pure _
  · refine .bind .get fun s => ?_
    extract_lets isThere runIn
    have hrun : ∀ path, Advances (runIn path) := by
      intro path
      dsimp only [runIn]
      split
      · exact .fail _
      · refine .speaking _ (.bind (.tryCatch (hgo _) fun leave => ?_) fun _ => ?_)
        · split
          · exact .pure _
          · exact .throw _
        · exact .bind .get fun _ => .pure _
    split
    · exact hrun _
    · split
      · exact hrun _
      · exact .bind (.fail _) hrun

theorem becomeProgram (hgo : ∀ t, Advances (go t)) (arguments : List String) :
    Advances (becomeProgram go arguments) := by
  refine .bind (.withoutOptions _) fun names => ?_
  split
  · exact .pure _
  · refine .bind .get fun s => ?_
    split
    · refine .bind (runProgram hgo _ _ _) fun _ => .bind (.setStatus _) fun _ => .throw _
    · exact .bind (.refuseCommand _ _) fun _ => .throw _

theorem tellCommand (arguments : List String) : Advances (tellCommand arguments) := by
  refine .bind (.letters _ _) fun (options, names) => ?_
  dsimp only
  split
  · exact .ite (.describe _ _ _) (.pure _)
  · exact .pure _

theorem leaveLoops (goesOn : Bool) (arguments : List String) :
    Advances (leaveLoops goesOn arguments) := by
  refine .bind ?_ fun levels => .bind .get fun _ => ?_
  · cases arguments.head? with
    | none => exact .pure _
    | some text =>
      refine .bind (.countArgument _) fun n => .doneIf (.fail _) fun _ => .pure _
  · exact .ite (.bind (.setStatus _) fun _ => .throw _) (.pure _)

theorem leaveFunction (arguments : List String) : Advances (leaveFunction arguments) := by
  refine .bind (.optionForM fun _ => ?_) fun _ => .throw _
  exact .bind (.countArgument _) fun _ => .setStatus _

theorem endShell (arguments : List String) : Advances (endShell arguments) := by
  unfold Shell.endShell
  split
  · exact .throw _
  · exact .bind (.countArgument _) fun _ => .throw _

theorem own (hgo : ∀ t, Advances (go t)) (name : String) (arguments : List String) :
    Advances (own go tested name arguments) := by
  unfold Shell.own
  split
  · exact runFile hgo arguments
  · exact .pure _
  · exact .pure _
  · exact .tellCondition _ _
  · exact .tellAliases _
  · exact .noJob _
  · exact .noJob _
  · exact leaveLoops _ _
  · exact .changeFolder _
  · exact tellCommand _
  · exact leaveLoops _ _
  · exact .tellArguments _
  · exact runArguments hgo _
  · exact becomeProgram hgo _
  · exact endShell _
  · exact .markVariables _ _ _ _
  · exact .pure _
  · exact .takeOption _
  · exact .tellFound _
  · exact .sendSignals _
  · exact .localVariables _
  · exact .tellByFormat _
  · exact .tellFolder _
  · exact .readVariables _
  · exact .markVariables _ _ _ _
  · exact leaveFunction _
  · exact .setSwitches _
  · exact .dropArguments _
  · exact .tellCondition _ _
  · exact .tellTimes _
  · exact .prepare _
  · exact .tellMeanings _
  · exact .tellLimit _
  · exact .tellMask _
  · exact .forgetAliases _
  · exact .removeNames _
  · exact .awaitProcesses _
  · exact .pure _

/-! ### Calls -/

theorem runCall (hgo : ∀ t, Advances (go t)) (isSpecial : Bool) (call : Call) :
    Advances (runCall go tested isSpecial call) := by
  refine .bind .get fun s => ?_
  split
  · exact .setStatus _
  · split
    · exact callFunction hgo _ _
    · refine .tryCatch (.bind (.speaking _ (own hgo _ _)) fun _ => .setStatus _) fun leave => ?_
      split
      · exact .ite (.throw _) (.pure _)
      · exact .throw _
    · refine .bind (.remember _ _) fun _ => .bind (runProgram hgo _ _ _) fun _ => .setStatus _
    · exact .bind (.refuseCommand _ _) fun _ => .setStatus _
    · exact .bind (.refuseCommand _ _) fun _ => .setStatus _

/-- After a command the descriptors lead where they led. -/
theorem runSimple (hgo : ∀ t, Advances (go t)) (assignments words : List Word)
    (redirections : List Redirection) :
    Advances (runSimple go tested assignments words redirections) := by
  refine .bind (.modify fun _ => ⟨rfl, rfl⟩) fun _ => .bind (expandWords hgo _ _) fun words => ?_
  refine .bind .get fun s => ?_
  extract_lets call isOwnSpecial isLocal isExec names
  refine .bind (.mapM fun _ => .expandRedirection (substitute hgo) _) fun redirects => ?_
  intro s hs
  refine .get_bind ?_
  extract_lets streams bindings restore
  refine .tryFinally ?_ fun s' hgoes => ?_
  · refine Advances.bind (.redirectAll _) (fun isRedirected => ?_) s hs
    refine .ite ?_ (.ite (.throw _) (.pure _))
    refine .bind (assignAll hgo _ _) fun traces => .bind (trace hgo _ _) fun _ => ?_
    exact runCall hgo _ _
  · have hrestore : ∀ u, Advances (restore u) := fun _ =>
      .ite (.forM fun _ => .restoreVariable _ _) (.pure _)
    split
    · exact hrestore () s' hgoes.sound
    · refine .bind (.reconnect hgoes.sound fun _ _ => hs.has_streams hgoes) ?_
      exact fun u s'' hgoes' => hrestore u s'' hgoes'.sound

end Advances

end Commands

end Bindery.Formatter.Shell
