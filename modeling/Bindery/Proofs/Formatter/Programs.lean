import Bindery.Formatter.Programs

/-! What programs leave to be read.

A program reads its input from the front and says what is left of it. Whatever its arguments are,
and whether it succeeds, that is an end of what there was to read (`suffix_pending_of_mem`). -/
namespace Bindery.Formatter

/-! ### Runs -/

section Runs
variable {setting : Setting} {r : Run} {os : Octets} {text : String}

@[simp] theorem Run.unread_say : (r.say os).unread = r.unread := by
  unfold Run.say
  split <;> rfl

@[simp] theorem Run.unread_complain : (r.complain text).unread = r.unread := rfl

namespace Setting

@[simp] theorem unread_start : setting.start.unread = setting.pending := rfl

@[simp] theorem unread_complain : (setting.complain text r).unread = r.unread := rfl

@[simp] theorem unread_finish : (setting.finish r).unread = r.unread := by
  unfold finish
  split <;> rfl

end Setting
end Runs

/-! ### Copies -/

section Copies
variable {setting : Setting}

theorem Cat.suffix_copyOperand (d : Cat.Display) {c : Cat.Copying} (operand : String)
    (h : c.run.unread <:+ setting.pending) :
    (Cat.copyOperand setting d c operand).run.unread <:+ setting.pending := by
  unfold Cat.copyOperand
  dsimp only
  split
  · split
    · simpa using h
    · simp
  · split
    · simpa using h
    · simpa using h

theorem Cat.suffix_copyOperands (d : Cat.Display) (operands : List String) :
    (Cat.copyOperands setting d operands).unread <:+ setting.pending := by
  unfold Cat.copyOperands
  split
  · exact List.suffix_rfl
  · extract_lets operands c run
    have hcopied : c.run.unread <:+ setting.pending :=
      List.foldlRecOn (motive := fun c : Cat.Copying => c.run.unread <:+ setting.pending) operands _
        List.suffix_rfl fun _ hc operand _ => Cat.suffix_copyOperand d operand hc
    have hrun : run.unread <:+ setting.pending := by rwa [Run.unread_say]
    split <;> exact hrun

theorem Cat.suffix_pending (setting : Setting) : (cat setting).unread <:+ setting.pending := by
  unfold cat
  split
  · exact List.suffix_rfl
  · exact Cat.suffix_copyOperands _ _

theorem Head.suffix_copyOperand (choice : Head.Choice) (headers : Bool) {c : Head.Copying}
    (operand : String) (h : c.run.unread <:+ setting.pending) :
    (Head.copyOperand setting choice headers c operand).run.unread <:+ setting.pending := by
  unfold Head.copyOperand
  extract_lets name withHeader unreadable
  have hheader : withHeader.run = c.run := by
    dsimp only [withHeader]
    split <;> rfl
  have hunreadable : ∀ fault, (unreadable fault).run.unread <:+ setting.pending := by
    intro fault
    dsimp only [unreadable]
    split
    · rwa [hheader]
    · exact h
  split
  · split
    · split
      · exact h
      · exact hunreadable _
    · exact hunreadable _
    · exact (List.drop_suffix _ _).trans h
  · split
    · exact hunreadable _
    · exact h
    · rwa [hheader]

theorem Head.suffix_copyOperands (choice : Head.Choice) (operands : List String) :
    (Head.copyOperands setting choice operands).unread <:+ setting.pending := by
  unfold Head.copyOperands
  extract_lets operands headers c run
  have hcopied : c.run.unread <:+ setting.pending :=
    List.foldlRecOn (motive := fun c : Head.Copying => c.run.unread <:+ setting.pending) operands _
      List.suffix_rfl fun _ hc operand _ => Head.suffix_copyOperand choice headers operand hc
  have hrun : run.unread = c.run.unread := by
    simp only [run, apply_ite Run.unread, Setting.unread_complain, ite_self]
  rwa [Setting.unread_finish, Run.unread_say, hrun]

theorem Head.suffix_refuse (misuse : Head.Misuse) :
    (Head.refuse setting misuse).unread <:+ setting.pending := by
  cases misuse <;> exact List.suffix_rfl

theorem Head.suffix_pending (setting : Setting) : (head setting).unread <:+ setting.pending := by
  unfold head
  split
  · exact Head.suffix_refuse _
  · dsimp only
    split
    · exact Head.suffix_refuse _
    · exact List.suffix_rfl
    · split
      · exact Head.suffix_refuse _
      · exact Head.suffix_copyOperands _ _

end Copies

/-! ### Counts and exchanges -/

section Filters
variable {setting : Setting}

/-- Counting reads all of the input or nothing. -/
theorem Wc.suffix_count (choice : Wc.Choice) (operands : List String) :
    (Wc.count setting choice operands).unread <:+ setting.pending := by
  unfold Wc.count
  extract_lets counted width readsInput unstarted start report tell
  have hstart : start.unread <:+ setting.pending := by
    dsimp only [start]
    split
    · exact List.nil_suffix
    · exact List.suffix_rfl
  have htold : (counted.foldl tell (start, {}, [])).1.unread <:+ setting.pending := by
    refine List.foldlRecOn
      (motive := fun told : Run × Wc.Counts × Octets => told.1.unread <:+ setting.pending)
      counted tell hstart fun (run, total, lines) hrun c _ => ?_
    dsimp only [tell]
    split <;> exact hrun
  generalize counted.foldl tell (start, {}, []) = told at htold
  obtain ⟨run, total, lines⟩ := told
  dsimp only
  rw [Setting.unread_finish, Run.unread_say]
  split
  · split <;> exact htold
  · exact htold

theorem Wc.suffix_pending (setting : Setting) : (wc setting).unread <:+ setting.pending := by
  unfold wc
  dsimp only
  split
  · exact List.suffix_rfl
  · exact List.suffix_rfl
  · exact Wc.suffix_count _ _

theorem Tr.unread_readSets (setting : Setting) (run : Run) (operands : List String) :
    (Tr.readSets setting run operands).1.unread = run.unread := by
  induction operands generalizing run with
  | nil => rfl
  | cons operand rest ih =>
    have hwarned : ∀ warnings : List String, (warnings.foldl (fun run warning =>
        { setting.complain ("warning: " ++ warning) run with status := run.status })
          run).unread = run.unread := fun warnings =>
      List.foldlRecOn (motive := fun r : Run => r.unread = run.unread) warnings _ rfl
        fun _ hr _ _ => hr
    unfold Tr.readSets
    dsimp only
    split
    · exact hwarned _
    · exact (ih _).trans (hwarned _)

/-- A filter reads all of the input. -/
theorem Tr.suffix_filterInput (fs : List Tr.Filter) {run : Run}
    (h : run.unread <:+ setting.pending) :
    (Tr.filterInput setting fs run).unread <:+ setting.pending := by
  unfold Tr.filterInput
  split
  · exact h
  · simp

theorem Tr.suffix_pending (setting : Setting) : (tr setting).unread <:+ setting.pending := by
  have hread : ∀ operands run sets?, Tr.readSets setting setting.start operands = (run, sets?) →
      run.unread <:+ setting.pending := by
    intro operands run sets? h
    have hunread := Tr.unread_readSets setting setting.start operands
    rw [h] at hunread
    exact hunread ▸ List.suffix_rfl
  unfold tr
  split
  · exact List.suffix_rfl
  · dsimp only
    split
    · exact List.suffix_rfl
    · split
      · next hsets =>
        have hrun := hread _ _ _ hsets
        exact hrun
      · next hsets =>
        have hrun := hread _ _ _ hsets
        split
        · exact hrun
        · exact Tr.suffix_filterInput _ hrun

end Filters

theorem suffix_pending_of_sleep (setting : Setting) :
    (sleep setting).unread <:+ setting.pending := by
  unfold sleep
  split
  · exact List.suffix_rfl
  · exact List.suffix_rfl
  · rw [Run.unread_complain]
    exact List.foldlRecOn (motive := fun r : Run => r.unread <:+ setting.pending) _ _
      List.suffix_rfl fun _ hr _ _ => hr

/-- **What a program leaves to be read is an end of what there was.** -/
theorem suffix_pending_of_mem {entry : String × Program} (hentry : entry ∈ plainPrograms)
    (setting : Setting) : (entry.2 setting).unread <:+ setting.pending := by
  simp only [plainPrograms, List.mem_cons, List.not_mem_nil, or_false] at hentry
  obtain rfl | rfl | rfl | rfl | rfl | rfl | rfl | rfl := hentry
  · exact Cat.suffix_pending setting
  · show (setting.finish _).unread <:+ _
    simp
  · exact List.suffix_rfl
  · exact Head.suffix_pending setting
  · exact suffix_pending_of_sleep setting
  · exact Tr.suffix_pending setting
  · exact List.suffix_rfl
  · exact Wc.suffix_pending setting

theorem suffix_pending_of_lookup {name : String} {program : Program}
    (h : plainPrograms.lookup name = some program) (setting : Setting) :
    (program setting).unread <:+ setting.pending := by
  obtain ⟨before, behind, hsplit, _⟩ := List.lookup_eq_some_iff.1 h
  have hmem : (name, program) ∈ plainPrograms := by simp [hsplit]
  exact suffix_pending_of_mem hmem setting

end Bindery.Formatter
