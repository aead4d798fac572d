import Bindery.Formatter.Shell.State

/-! What a shell cannot undo.

What was read is gone, what was written stays, and a pipe or file that was opened can be asked for
by its number from then on (`Later`). A descriptor therefore never dangles once it leads somewhere
(`State.Sound`). An act of a shell *advances* if it leaves both as they should be, whatever the
state it starts in, and also if it fails (`Advances`). Acts that advance do so one after the other,
in any number, and when their failures are handled; where an act does so only from some states, the
state is kept in view (`AdvancesFrom`). -/
namespace Bindery.Formatter.Shell

/-- What a machine can have become as time goes on. -/
structure Later (m m' : Machine) : Prop where
  given : m'.given <:+ m.given
  output : m.output <:+ m'.output
  complaints : m.complaints <:+ m'.complaints
  pipes : m.pipes.size ≤ m'.pipes.size
  files : m.files.size ≤ m'.files.size
  lastProcess : m.lastProcess ≤ m'.lastProcess

theorem Later.refl (m : Machine) : Later m m :=
  ⟨List.suffix_rfl, List.suffix_rfl, List.suffix_rfl, Nat.le_refl _, Nat.le_refl _, Nat.le_refl _⟩

theorem Later.trans {m m' m'' : Machine} (h : Later m m') (h' : Later m' m'') : Later m m'' where
  given := h'.given.trans h.given
  output := h.output.trans h'.output
  complaints := h.complaints.trans h'.complaints
  pipes := Nat.le_trans h.pipes h'.pipes
  files := Nat.le_trans h.files h'.files
  lastProcess := Nat.le_trans h.lastProcess h'.lastProcess

/-- Whether there is what a stream stands for. -/
def Machine.Has (m : Machine) : Stream → Prop
  | .pipe number _ => number < m.pipes.size
  | .file number => number < m.files.size
  | .given | .output | .complaint | .folder | .sink => True

theorem Machine.Has.later {m m' : Machine} {stream : Stream} (h : m.Has stream)
    (hlater : Later m m') : m'.Has stream := by
  cases stream with
  | pipe number writes => exact Nat.lt_of_lt_of_le h hlater.pipes
  | file number => exact Nat.lt_of_lt_of_le h hlater.files
  | given | output | complaint | folder | sink => trivial

/-- Every descriptor leads to something that is there. -/
def State.Sound (s : State) : Prop := ∀ d ∈ s.descriptors, s.machine.Has d.2

theorem State.Sound.stream? {s : State} (h : s.Sound) {descriptor : Nat} {stream : Stream}
    (hstream : s.stream? descriptor = some stream) : s.machine.Has stream := by
  obtain ⟨before, behind, hsplit, _⟩ := List.lookup_eq_some_iff.1 hstream
  exact h (descriptor, stream) (by simp [hsplit])

/-- What a shell can have become. -/
structure Goes (s s' : State) : Prop where
  later : Later s.machine s'.machine
  sound : s'.Sound

theorem Goes.refl {s : State} (h : s.Sound) : Goes s s := ⟨.refl _, h⟩

theorem Goes.trans {s s' s'' : State} (h : Goes s s') (h' : Goes s' s'') : Goes s s'' :=
  ⟨h.later.trans h'.later, h'.sound⟩

/-- The machine goes on, and the descriptors are those of an earlier time. -/
theorem Goes.of_later {s s' : State} (h : s.Sound) (hlater : Later s.machine s'.machine)
    (hdescriptors : s'.descriptors = s.descriptors) : Goes s s' where
  later := hlater
  sound d hd := (h d (hdescriptors ▸ hd)).later hlater

/-- What an act leaves, whether it fails or not, comes from what it starts with. -/
def AdvancesFrom {α : Type} (s : State) (act : ShellM α) : Prop := Goes s (act.run.run s).2

/-- An act leads on from every state in which no descriptor dangles. -/
def Advances {α : Type} (act : ShellM α) : Prop := ∀ s, s.Sound → AdvancesFrom s act

variable {α β : Type} {s : State}

/-! ### Acts in a row -/

/-- What comes next starts with what an act gives and leaves. -/
theorem AdvancesFrom.bind_of {act : ShellM α} {next : α → ShellM β} (h : AdvancesFrom s act)
    (hnext : ∀ a s', act.run.run s = (.ok a, s') → Goes s s' → AdvancesFrom s' (next a)) :
    AdvancesFrom s (act >>= next) := by
  unfold AdvancesFrom at h ⊢
  rw [ExceptT.run_bind, StateT.run_bind]
  generalize hdone : act.run.run s = done at h ⊢
  obtain ⟨_ | a, s'⟩ := done
  · exact h
  · exact h.trans (hnext a s' hdone h)

theorem AdvancesFrom.bind {act : ShellM α} {next : α → ShellM β} (h : AdvancesFrom s act)
    (hnext : ∀ a s', Goes s s' → AdvancesFrom s' (next a)) : AdvancesFrom s (act >>= next) :=
  h.bind_of fun a s' _ => hnext a s'

theorem AdvancesFrom.get_bind {next : State → ShellM β} (h : AdvancesFrom s (next s)) :
    AdvancesFrom s (get >>= next) := h

theorem AdvancesFrom.modify_bind {f : State → State} {next : PUnit → ShellM β} (h : Goes s (f s))
    (hnext : AdvancesFrom (f s) (next ⟨⟩)) : AdvancesFrom s (modify f >>= next) :=
  h.trans hnext

namespace Advances
variable {act act' : ShellM α} {next : α → ShellM β}

theorem pure (a : α) : Advances (Pure.pure a : ShellM α) := fun _ hs => .refl hs

theorem throw (leave : Leave) : Advances (throw leave : ShellM α) := fun _ hs => .refl hs

theorem get : Advances (MonadState.get : ShellM State) := fun _ hs => .refl hs

theorem bind (h : Advances act) (hnext : ∀ a, Advances (next a)) : Advances (act >>= next) :=
  fun s hs => (h s hs).bind fun a s' hgoes => hnext a s' hgoes.sound

theorem map {f : α → β} (h : Advances act) : Advances (f <$> act) := by
  rw [map_eq_pure_bind]
  exact h.bind fun a => .pure (f a)

/-- A change that leaves the machine and the descriptors. -/
theorem modify {f : State → State}
    (h : ∀ s, (f s).machine = s.machine ∧ (f s).descriptors = s.descriptors) :
    Advances (modify f : ShellM Unit) := by
  intro s hs
  exact Goes.of_later hs ((h s).1 ▸ .refl _) (h s).2

theorem ite {c : Prop} [Decidable c] (h : Advances act) (h' : Advances act') :
    Advances (if c then act else act') := by
  split
  · exact h
  · exact h'

/-- Something is done first unless a condition holds. -/
theorem doneUnless {c : Prop} [Decidable c] {first : ShellM Unit} {next : Unit → ShellM β}
    (h : Advances first) (hnext : ∀ a, Advances (next a)) :
    Advances (if c then next () else first >>= next) :=
  ite (hnext ()) (h.bind hnext)

/-- Something is done first if a condition holds. -/
theorem doneIf {c : Prop} [Decidable c] {first : ShellM Unit} {next : Unit → ShellM β}
    (h : Advances first) (hnext : ∀ a, Advances (next a)) :
    Advances (if c then first >>= next else next ()) :=
  ite (h.bind hnext) (hnext ())

end Advances

/-! ### Failures -/

theorem run_tryCatch {act : ShellM α} {handle : Leave → ShellM α} :
    (tryCatch act handle).run.run s =
      match act.run.run s with
      | (.ok a, s') => (.ok a, s')
      | (.error leave, s') => (handle leave).run.run s' := by
  rcases hact : act s with ⟨leave | a, s'⟩
  · simp [tryCatch, tryCatchThe, MonadExceptOf.tryCatch, ExceptT.tryCatch, ExceptT.mk, ExceptT.run,
      StateT.run, bind, StateT.bind, hact]
  · simp [tryCatch, tryCatchThe, MonadExceptOf.tryCatch, ExceptT.tryCatch, ExceptT.mk, ExceptT.run,
      StateT.run, bind, StateT.bind, hact]
    rfl

/-- What is done in the end is done in the state that the act leaves, whether it fails or not. -/
theorem state_tryFinally {act : ShellM α} {last : ShellM β} :
    ((tryFinally act last).run.run s).2 = (last.run.run (act.run.run s).2).2 := by
  rcases hact : act s with ⟨leave | a, s'⟩ <;> rcases hlast : last s' with ⟨leave' | b, s''⟩ <;>
    simp [tryFinally, tryFinally', ExceptT.run, StateT.run, Functor.map, ExceptT.map, ExceptT.mk,
      bind, StateT.bind, hact, hlast] <;>
    rfl

theorem AdvancesFrom.tryCatch {act : ShellM α} {handle : Leave → ShellM α} (h : AdvancesFrom s act)
    (hhandle : ∀ leave s', Goes s s' → AdvancesFrom s' (handle leave)) :
    AdvancesFrom s (tryCatch act handle) := by
  unfold AdvancesFrom at h ⊢
  rw [run_tryCatch]
  generalize act.run.run s = done at h ⊢
  obtain ⟨leave | a, s'⟩ := done
  · exact h.trans (hhandle leave s' h)
  · exact h

theorem AdvancesFrom.tryFinally {act : ShellM α} {last : ShellM β} (h : AdvancesFrom s act)
    (hlast : ∀ s', Goes s s' → AdvancesFrom s' last) : AdvancesFrom s (tryFinally act last) := by
  unfold AdvancesFrom at h ⊢
  rw [state_tryFinally]
  exact h.trans (hlast _ h)

namespace Advances
variable {act : ShellM α}

theorem tryCatch {handle : Leave → ShellM α} (h : Advances act)
    (hhandle : ∀ leave, Advances (handle leave)) : Advances (tryCatch act handle) :=
  fun s hs => (h s hs).tryCatch fun leave s' hgoes => hhandle leave s' hgoes.sound

theorem tryFinally {last : ShellM β} (h : Advances act) (hlast : Advances last) :
    Advances (tryFinally act last) :=
  fun s hs => (h s hs).tryFinally fun s' hgoes => hlast s' hgoes.sound

/-! A block in which something can be given early gives it as an error or goes on with what it
gives at its end. -/

theorem given (a : α) : Advances (@EarlyReturnT.return α ShellM β _ a : ShellM (Except α β)) :=
  fun _ hs => .refl hs

theorem atEnd (h : Advances act) :
    Advances (act >>= fun a => (Pure.pure a : ExceptT β ShellM α).run) :=
  h.bind fun _ _ hs => .refl hs

theorem block {body : ShellM (Except β β)} (h : Advances body) :
    Advances (body >>= fun e => EarlyReturn.runK e Pure.pure Pure.pure) := by
  refine h.bind fun e => ?_
  cases e with
  | error b => exact .pure b
  | ok b => exact .pure b

end Advances

/-! ### Acts for each of some things -/

section Lists
variable {x : α} {xs : List α}

theorem AdvancesFrom.forM {act : α → ShellM PUnit} {s : State} (hs : s.Sound)
    (h : ∀ x ∈ xs, ∀ s', Goes s s' → AdvancesFrom s' (act x)) : AdvancesFrom s (xs.forM act) := by
  induction xs generalizing s with
  | nil => exact .refl hs
  | cons x xs ih =>
    refine (h x List.mem_cons_self s (.refl hs)).bind fun _ s' hgoes => ih hgoes.sound ?_
    exact fun y hy s'' hgoes' => h y (List.mem_cons_of_mem _ hy) s'' (hgoes.trans hgoes')

namespace Advances

theorem forM {act : α → ShellM PUnit} (h : ∀ x, Advances (act x)) : Advances (xs.forM act) :=
  fun _ hs => .forM hs fun x _ s' hgoes => h x s' hgoes.sound

theorem mapM {act : α → ShellM β} (h : ∀ x, Advances (act x)) : Advances (xs.mapM act) := by
  induction xs with
  | nil => exact .pure []
  | cons x xs ih =>
    rw [List.mapM_cons]
    exact (h x).bind fun _ => ih.bind fun _ => .pure _

theorem foldlM {act : β → α → ShellM β} {b : β} (h : ∀ b x, Advances (act b x)) :
    Advances (xs.foldlM act b) := by
  induction xs generalizing b with
  | nil => exact .pure b
  | cons x xs ih =>
    rw [List.foldlM_cons]
    exact (h b x).bind fun _ => ih

theorem optionForM {act : α → ShellM PUnit} {x? : Option α} (h : ∀ x, Advances (act x)) :
    Advances (x?.forM act) := by
  cases x? with
  | none => exact .pure _
  | some x => exact h x

end Advances
end Lists

end Bindery.Formatter.Shell
