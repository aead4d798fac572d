import Bindery.Formatter.Shell.Process
import Bindery.Proofs.Formatter.OwnCommands
import Bindery.Proofs.Formatter.Programs

/-! Processes and what is left of them.

A process is done with its own descriptors, variables and traps, and the shell that started it goes
on with those that it had: of all that the process did, only the machine is left
(`state_inProcess`). What a process reads, it reads from the front (`Advances.runPlain`). -/
namespace Bindery.Formatter.Shell

/-- A shell goes on as it was, with a machine that has gone on. -/
theorem Goes.back {outer inner : State} (houter : outer.Sound)
    (h : Later outer.machine inner.machine) :
    Goes inner { outer with machine := inner.machine } where
  later := .refl _
  sound d hd := (houter d hd).later h

theorem AdvancesFrom.block {β : Type} {s : State} {body : ShellM (Except β β)}
    (h : AdvancesFrom s body) :
    AdvancesFrom s (body >>= fun e => EarlyReturn.runK e Pure.pure Pure.pure) := by
  refine h.bind fun e s' hgoes => ?_
  cases e with
  | error b => exact .refl hgoes.sound
  | ok b => exact .refl hgoes.sound

/-! ### The end of a process -/

section Ends
variable {s : State} {act : ShellM Unit} {run : Reader → ShellM Unit}

theorem Advances.runExitTrap (hrun : ∀ r, Advances (run r)) : Advances (runExitTrap run) := by
  refine .bind .get fun s => ?_
  split
  · exact .pure _
  · refine .bind (.modify fun _ => ⟨rfl, rfl⟩) fun _ => .block (.tryCatch ?_ fun leave => ?_)
    · exact .bind (hrun _) fun _ => .atEnd (.setStatus _)
    · split
      · exact .atEnd (.setStatus _)
      · exact .given _
      · exact .given _
      · exact .atEnd (.throw _)
      all_goals exact .atEnd (.setStatus _)

theorem AdvancesFrom.untilEnd (hrun : ∀ r, Advances (run r)) (h : AdvancesFrom s act) :
    AdvancesFrom s (untilEnd run act) := by
  refine .bind (.tryCatch (h.bind fun _ s' hgoes => .refl hgoes.sound) fun leave s' hgoes => ?_)
    fun isReplaced s' hgoes => ?_
  · split
    · exact .refl hgoes.sound
    · exact .refl hgoes.sound
    · exact Advances.bind (.optionForM .setStatus) (fun _ => .pure _) s' hgoes.sound
    · exact .refl hgoes.sound
  · exact Advances.ite (.pure _) (.runExitTrap hrun) s' hgoes.sound

/-- **A process leaves the machine and nothing else**, however it ends. -/
theorem state_inProcess (run : Reader → ShellM Unit) (act : ShellM Unit) (s : State) :
    ∃ machine, ((inProcess run act).run.run s).2 = { s with machine } := by
  let s₀ : State := { s with traps := s.traps.filter (·.2 = ""), loops := 0, pending := [] }
  let ended : ShellM (Except Nat Nat) := do
    untilEnd run act
    let status := (← get).status % 256
    return .error status
  let last : ShellM Unit := modify fun inner => { s with machine := inner.machine }
  have h : (inProcess run act).run.run s =
      ((tryFinally ended last >>= fun e => EarlyReturn.runK e Pure.pure Pure.pure).run.run
        s₀) := rfl
  rw [h, ExceptT.run_bind, StateT.run_bind]
  have hstate : ((tryFinally ended last).run.run s₀).2 = { s with machine := _ } :=
    state_tryFinally
  generalize (tryFinally ended last).run.run s₀ = done at hstate ⊢
  obtain ⟨_ | (_ | _), s'⟩ := done <;> exact ⟨_, hstate⟩

theorem AdvancesFrom.inProcess (hs : s.Sound) (hrun : ∀ r, Advances (run r))
    (h : ∀ s', Goes s s' → AdvancesFrom s' act) : AdvancesFrom s (inProcess run act) := by
  have hstart : ∀ s' : State, s'.machine = s.machine ∧ s'.descriptors = s.descriptors →
      Goes s s' := fun s' heq => .of_later hs (heq.1 ▸ .refl _) heq.2
  refine .get_bind (.modify_bind (hstart _ ⟨rfl, rfl⟩) (.block (.tryFinally ?_ ?_)))
  · refine .bind (.untilEnd hrun (h _ (hstart _ ⟨rfl, rfl⟩))) fun _ s' hgoes => ?_
    exact Advances.bind .get (fun _ => .given _) s' hgoes.sound
  · intro s' hgoes
    exact Goes.back hs hgoes.later

theorem Advances.inProcess (hrun : ∀ r, Advances (run r)) (h : Advances act) :
    Advances (inProcess run act) :=
  fun _ hs => .inProcess hs hrun fun s' hgoes => h s' hgoes.sound

end Ends

/-! ### Signals and programs -/

namespace Advances

theorem answerSignals {run : Reader → ShellM Unit} (hrun : ∀ r, Advances (run r)) :
    Advances (answerSignals run) := by
  refine .bind .get fun s => .bind (.modify fun _ => ⟨rfl, rfl⟩) fun _ => .forM fun signal => ?_
  refine .bind .get fun s => ?_
  split
  · exact .pure _
  · exact .pure _
  · refine .bind (.tryCatch (hrun _) fun leave => ?_) fun _ => .setStatus _
    split
    · exact .throw _
    · exact .throw _

theorem mournProcess (signal : Signal) : Advances (mournProcess signal) := by
  unfold Shell.mournProcess
  split
  · exact .bind (.write _ _) fun _ => .pure _
  · exact .pure _

/-- A program takes what it reads from the front of its input. -/
theorem runPlain {program : Program}
    (hprogram : ∀ setting, (program setting).unread <:+ setting.pending) (name : String)
    (arguments : List String) : Advances (runPlain program name arguments) := by
  intro s hs
  refine .get_bind ?_
  extract_lets input hasOutput r tell
  have htell : ∀ u, Advances (tell u) := fun _ =>
    .bind (.forM fun _ => .bind (.write _ _) fun _ => .pure _) fun _ => .pure _
  split
  · next stream hstream =>
    have hinput : input = s.machine.readable stream := by simp only [input, hstream]
    have hleft : stream = .given → r.unread <:+ s.machine.given := by
      rintro rfl
      have hunread : r.unread <:+ _ := hprogram _
      rwa [Setting.pending, hinput] at hunread
    have hgoes : Goes s { s with machine := s.machine.leave r.unread stream } :=
      .of_later hs (Machine.later_leave hleft) rfl
    exact .modify_bind hgoes (htell () _ hgoes.sound)
  · exact htell () s hs

theorem startWith (arguments : List String) : Advances (startWith arguments) := by
  refine .bind (.turnSwitches _ _ _) fun (isText, _, rest) => ?_
  extract_lets takeName readInput
  have hname : ∀ rest, Advances (takeName rest) := fun rest => by
    dsimp only [takeName]
    split
    · exact .modify fun _ => ⟨rfl, rfl⟩
    · exact .pure _
  have hinput : ∀ u, Advances (readInput u) := fun _ =>
    .bind (.modify fun _ => ⟨rfl, rfl⟩) fun _ => .pure _
  dsimp only
  split
  · exact .doneIf (.fail _) hinput
  · refine .ite (.bind (hname _) fun _ => .pure _) (.bind .get fun _ => .ite ?_ ?_)
    · exact .bind (.modify fun _ => ⟨rfl, rfl⟩) fun _ => .pure _
    · refine .bind .get fun s => ?_
      split
      · exact .fail _
      · refine .bind (hname (_ :: _)) fun _ => ?_
        split
        · exact .pure _
        · exact .pure _

end Advances

end Bindery.Formatter.Shell
