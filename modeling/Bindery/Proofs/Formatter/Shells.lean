import Bindery.Proofs.Formatter.Commands

/-! A shell from its start to its end.

Doing one thing advances if whatever nests in it does (`Advances.step`), and so does all that a
shell does, however deeply it nests (`Advances.perform`). A shell that is started on a text
therefore leaves an end of the text unread, whatever its arguments are and however it ends
(`unread_runShell_suffix`). -/
namespace Bindery.Formatter.Shell

section Shells
variable {go : Performer} {s : State} {tested : Bool}

/-! ### Loops -/

namespace Advances

/-- A turn is a test and a body, and the loop goes on from where one of them was left. -/
theorem turnAround (hgo : ∀ t, Advances (go t)) (inverted : Bool) (test body : Command)
    (n status : Nat) : Advances (turnAround go inverted tested test body n status) := by
  induction n generalizing status with
  | zero => exact fun s hs => .of_later hs (.refl _) rfl
  | succ n ih =>
    intro s hs
    have htest : Goes s ((go (.command test true)).outcome s).2 := hgo _ s hs
    show Goes s (Shell.turnAround go inverted tested test body (n + 1) status s).2
    unfold Shell.turnAround
    split
    · next leave s' hleave =>
      rw [hleave] at htest
      split
      · exact htest.trans (ih _ s' htest.sound)
      · exact htest.trans (.of_later htest.sound (.refl _) rfl)
      · exact htest
    · next s' hdone =>
      rw [hdone] at htest
      split
      · exact htest.trans (.of_later htest.sound (.refl _) rfl)
      · have hbody : Goes s' ((go (.command body tested)).outcome s').2 := hgo _ s' htest.sound
        refine htest.trans ?_
        split
        · next leave s'' hleave =>
          rw [hleave] at hbody
          split
          · exact hbody.trans (ih _ s'' hbody.sound)
          · exact hbody
          · exact hbody
        · next s'' hdone' =>
          rw [hdone'] at hbody
          exact hbody.trans (ih _ s'' hbody.sound)

theorem turnThrough (hgo : ∀ t, Advances (go t)) (name : String) (body : Command)
    (values : List String) : Advances (turnThrough go tested name body values) := by
  induction values with
  | nil => exact fun s hs => .refl hs
  | cons value rest ih =>
    intro s hs
    let turn : ShellM Unit := do
      ShellM.setVariable name value
      go (.command body tested)
    have hturn : Goes s (turn.outcome s).2 := bind (.setVariable _ _) (fun _ => hgo _) s hs
    show Goes s (Shell.turnThrough go tested name body (value :: rest) s).2
    unfold Shell.turnThrough
    dsimp only
    split
    · next leave s' hleave =>
      rw [hleave] at hturn
      split
      · exact hturn.trans (ih s' hturn.sound)
      · exact hturn
      · exact hturn
    · next s' hdone =>
      rw [hdone] at hturn
      exact hturn.trans (ih s' hturn.sound)

theorem inLoop {turns : State → Outcome} (h : Advances (turns : ShellM Unit)) :
    Advances (inLoop turns) :=
  .bind .get fun _ => .bind (.modify fun _ => ⟨rfl, rfl⟩) fun _ =>
    h.tryFinally (.modify fun _ => ⟨rfl, rfl⟩)

/-! ### Compound commands -/

theorem runBranch (hgo : ∀ t, Advances (go t)) (text : List Char)
    (branches : List (List Word × Option Command)) :
    Advances (runBranch go tested text branches) := by
  induction branches with
  | nil => exact .setStatus 0
  | cons branch rest ih =>
    obtain ⟨patterns, body⟩ := branch
    refine .bind (.foldlM fun fits w => .ite (.pure _) ?_) fun fits => .ite ?_ ih
    · exact .bind (.expandPattern (substitute hgo) _) fun _ => .pure _
    · split
      · exact hgo _
      · exact .setStatus 0

end Advances

/-- Every pipe whose number is known is there. -/
def State.HasPipe (s : State) (number? : Option Nat) : Prop :=
  ∀ number ∈ number?, number < s.machine.pipes.size

theorem State.HasPipe.later {s s' : State} {number? : Option Nat} (h : s.HasPipe number?)
    (hgoes : Goes s s') : s'.HasPipe number? :=
  fun number hnumber => Nat.lt_of_lt_of_le (h number hnumber) hgoes.later.pipes

theorem AdvancesFrom.connectPipe {number? : Option Nat} {descriptor : Nat} {writes : Bool}
    (hs : s.Sound) (h : s.HasPipe number?) :
    AdvancesFrom s (number?.forM fun number =>
      ShellM.connect descriptor (.pipe number writes)) := by
  cases number? with
  | none => exact .refl hs
  | some number => exact .connect hs (h number rfl)

/-- Each command of a pipeline reads a pipe that is there. -/
theorem AdvancesFrom.runPiped (hgo : ∀ t, Advances (go t)) (cs : List Command) {input? : Option Nat}
    (hs : s.Sound) (hinput : s.HasPipe input?) :
    AdvancesFrom s (runPiped go tested input? cs) := by
  induction cs generalizing s input? with
  | nil => exact .refl hs
  | cons c rest ih =>
    unfold Shell.runPiped
    extract_lets piped
    have hpiped : ∀ output? s', Goes s s' → s'.HasPipe output? →
        AdvancesFrom s' (piped output?) := by
      intro output? s' hgoes houtput
      refine (AdvancesFrom.inProcess hgoes.sound (fun _ => hgo _) fun s₀ h₀ => ?_).bind
        fun status s'' hgoes' => ?_
      · refine (connectPipe h₀.sound ((hinput.later hgoes).later h₀)).bind fun _ s₁ h₁ => ?_
        refine (connectPipe h₁.sound (houtput.later (h₀.trans h₁))).bind fun _ s₂ h₂ => ?_
        exact hgo _ s₂ h₂.sound
      · refine (Advances.setStatus status s'' hgoes'.sound).bind fun _ s₁ h₁ => ?_
        exact ih h₁.sound (houtput.later (hgoes'.trans h₁))
    split
    · exact hpiped none s (.refl hs) nofun
    · refine (Advances.map (.newPipe []) s hs).bind_of fun output? s' hrun hgoes => ?_
      cases hrun
      refine hpiped _ _ hgoes fun number hnumber => ?_
      cases hnumber
      exact s.machine.has_addPipe [] true

namespace Advances

theorem runCommand (hgo : ∀ t, Advances (go t)) (c : Command) :
    Advances (runCommand go tested c) := by
  have hword := substitute hgo
  cases c with
  | simple line assignments words redirections =>
    exact .bind (.modify fun _ => ⟨rfl, rfl⟩) fun _ => runSimple hgo _ _ _
  | negated c => exact .bind (hgo _) fun _ => .modify fun _ => ⟨rfl, rfl⟩
  | pipeline cs => exact fun s hs => .runPiped hgo cs hs nofun
  | both a b => exact .bind (hgo _) fun _ => .bind .get fun _ => .ite (hgo _) (.pure _)
  | either a b => exact .bind (hgo _) fun _ => .bind .get fun _ => .ite (hgo _) (.pure _)
  | sequence a b => exact .bind (hgo _) fun _ => hgo _
  | background c =>
    intro s hs
    have hstart : Goes s { s with
        machine := { s.machine with lastProcess := s.machine.lastProcess + 1 } } :=
      .of_later hs { Later.refl s.machine with lastProcess := Nat.le_succ _ } rfl
    refine .get_bind (.modify_bind hstart ?_)
    refine Advances.bind (.inProcess (fun _ => hgo _) fun s' hs' => ?_) (fun _ => ?_) _ hstart.sound
    · refine AdvancesFrom.bind (.connect hs' ?_) fun _ s'' hgoes => hgo _ s'' hgoes.sound
      exact trivial
    · exact .modify fun _ => ⟨rfl, rfl⟩
  | subshell line body redirections =>
    refine .bind (.modify fun _ => ⟨rfl, rfl⟩) fun _ => ?_
    refine .bind (.mapM fun _ => .expandRedirection hword _) fun redirects => ?_
    refine .bind (.inProcess (fun _ => hgo _) ?_) fun _ => .setStatus _
    exact .bind (.forM .redirect) fun _ => .optionForM fun _ => hgo _
  | redirected line c redirections =>
    refine .bind (.modify fun _ => ⟨rfl, rfl⟩) fun _ => ?_
    exact .bind (.mapM fun _ => .expandRedirection hword _) fun _ => .whileRedirected (hgo _)
  | choose test body otherwise =>
    refine .bind (hgo _) fun _ => .bind .get fun _ => .ite (hgo _) ?_
    cases otherwise with
    | some c => exact hgo _
    | none => exact .setStatus 0
  | loop inverted test body => exact .inLoop (turnAround hgo _ _ _ _ _)
  | each line name words body =>
    refine .bind (.modify fun _ => ⟨rfl, rfl⟩) fun _ => ?_
    refine .bind (.mapM fun _ => .expandFields hword _) fun _ => .bind (.setStatus 0) fun _ => ?_
    exact .inLoop (turnThrough hgo _ _ _)
  | select line word branches =>
    refine .bind (.modify fun _ => ⟨rfl, rfl⟩) fun _ => ?_
    exact .bind (.expandText hword _) fun _ => runBranch hgo _ _
  | define line name body => exact .modify fun _ => ⟨rfl, rfl⟩

/-! ### Scripts -/

theorem takeLine (r : Reader) : Advances (takeLine r) := by
  refine .bind .get fun s => ?_
  split
  · exact .bind (.modify fun _ => ⟨rfl, rfl⟩) fun _ => .fail _
  · exact .bind (.modify fun _ => ⟨rfl, rfl⟩) fun _ => .pure _

theorem runReader (hgo : ∀ t, Advances (go t)) (n : Nat) (hasRun : Bool) (r : Reader) :
    Advances (runReader go tested n hasRun r) := by
  induction n generalizing hasRun r with
  | zero => exact .pure _
  | succ n ih =>
    refine .bind (.takeLine _) fun (line, r) => ?_
    cases line with
    | endOfScript => exact .ite (.pure _) (.setStatus 0)
    | nothing => exact ih _ _
    | command c => exact .bind (hgo _) fun _ => ih _ _

/-- What the shell has not read when it has read a line is an end of what there was. -/
theorem runInput (hgo : ∀ t, Advances (go t)) (n held : Nat) (r : Reader) :
    Advances (runInput go n held r) := by
  induction n generalizing held r with
  | zero => exact .pure _
  | succ n ih =>
    intro s hs
    refine .get_bind ?_
    extract_lets stream behind text count keep
    have hbehind : stream = .given → behind = s.machine.given := by
      intro hgiven
      simp only [behind, hgiven, Machine.readable]
    have hkeep : ∀ left (s' : State), s'.Sound → s'.machine = s.machine →
        AdvancesFrom s' (keep left) := by
      intro left s' hs' hmachine
      have hleave : ∀ n,
          Goes s' { s' with machine := s'.machine.leave (behind.drop n) stream } := by
        refine fun n => .of_later hs' (Machine.later_leave fun hgiven => ?_) rfl
        rw [hmachine, ← hbehind hgiven]
        exact List.drop_suffix _ _
      exact .modify_bind (hleave _) (.refl (hleave _).sound)
    clear_value keep
    split
    · refine (hkeep 0 s hs rfl).bind fun _ s' hgoes => ?_
      refine (?_ : Advances _) s' hgoes.sound
      exact .bind (.modify fun _ => ⟨rfl, rfl⟩) fun _ => .fail _
    · next line r hline =>
      have hread : Goes s { s with
          documents := r.documents ++ s.documents, nextDocument := r.nextDocument } :=
        .of_later hs (.refl _) rfl
      refine .modify_bind hread ((hkeep _ _ hread.sound rfl).bind fun held s' hgoes => ?_)
      cases line with
      | endOfScript => exact .refl hgoes.sound
      | nothing => exact ih _ _ s' hgoes.sound
      | command c => exact Advances.bind (hgo _) (fun _ => ih _ _) s' hgoes.sound

end Advances

end Shells

/-! ### Everything -/

/-- **Doing one thing advances** if whatever nests in it does. -/
theorem Advances.step {go : Performer} (hgo : ∀ t, Advances (go t)) (t : Task) :
    Advances (step go t) := by
  cases t with
  | command c tested =>
    refine .bind .get fun s => .ite (.pure _) (.bind (.runCommand hgo c) fun _ => ?_)
    refine .bind (.answerSignals fun _ => hgo _) fun _ => .bind .get fun s => ?_
    exact .ite (.throw _) (.pure _)
  | script r tested => exact .runReader hgo _ _ _
  | input => exact .runInput hgo _ _ _

/-- **All that a shell does advances**, however deeply it nests. -/
theorem Advances.perform (depth : Nat) (t : Task) : Advances (perform depth t) := by
  induction depth generalizing t with
  | zero => exact .bind .get fun _ => .throw _
  | succ depth ih => exact .step ih t

theorem sound_starting (name : String) (text : Octets) : (starting name text).Sound := by
  intro d hd
  simp only [starting, List.mem_cons, List.not_mem_nil, or_false] at hd
  obtain rfl | rfl | rfl := hd <;> exact trivial

/-- **A shell reads what it was given from the front**, whatever its arguments are and however it
ends. -/
theorem unread_runShell_suffix (name : String) (arguments : List String) (text : Octets) :
    (runShell name arguments text).unread <:+ text := by
  have hran := Advances.runStarted (Advances.perform depthLimit) arguments _
    (sound_starting name text)
  exact hran.later.given

end Bindery.Formatter.Shell
