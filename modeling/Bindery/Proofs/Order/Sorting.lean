import Bindery.Proofs.Order.Placing

/-! What a sort gives, and when it fails.

A sort that succeeds is one run over all models (`puts_of_sortModels`), so what a run
keeps holds of its result: `sortModels_settles` says that every model is there once, that
no flag comes twice, and that a model is flagged unless all of its references stand in
front of it. A sort fails exactly if some model refers to a name that no model has, and
then it names exactly the models that do (`sortModels_fails_iff`): neither cycles, nor the
budget, nor the order in which the models came have a part in it. -/
namespace Bindery

/-! ### Arranging by base classes only moves models -/

namespace BaseClasses

theorem perm_round (placed : Placement) (models : List Model) :
    (round placed models).Perm models := by
  have h := (perm_stableSort (fun a b => rankLE a.1 b.1)
    (models.map fun m => (rank placed (models.map Model.qualifiedName) m, m))).map Prod.snd
  simpa [round, Function.comp_def] using h

theorem perm_settle (placed : Placement) (rounds : Nat) (seen : List (List String))
    (models : List Model) : (settle placed rounds seen models).1.Perm models := by
  induction rounds generalizing seen models with
  | zero => exact .refl _
  | succ rounds ih =>
    simp only [settle]
    split
    · exact .refl _
    · split
      · exact .refl _
      · exact (ih _ _).trans (perm_round placed models)

theorem perm_arrange (placed : Placement) (models : List Model) :
    (arrange placed models).1.Perm models := perm_settle _ _ _ _

end BaseClasses

open Placement

/-! ### The parts of a sort -/

/-- The models that the passes leave, arranged by their base classes. -/
def leftover (budget : Nat) (models : List Model) : List Model :=
  (BaseClasses.arrange (passes budget {} models).1 (passes budget {} models).2).1

/-- The last pass over what the others left. -/
def lastPass (budget : Nat) (models : List Model) : Placement × List Unresolved :=
  placeEach ((leftover budget models).map Model.qualifiedName)
    { (passes budget {} models).1 with fallback := true } [] (leftover budget models)

theorem perm_leftover (budget : Nat) (models : List Model) :
    (leftover budget models).Perm (passes budget {} models).2 :=
  BaseClasses.perm_arrange _ _

/-- A sort is its passes if they leave nothing, and else the last pass, which must not fail. -/
theorem sortModels_eq (budget : Nat) (models : List Model) :
    sortModels budget models =
      if (passes budget {} models).2 = [] then .ok (passes budget {} models).1
      else if (lastPass budget models).2 = [] then .ok (lastPass budget models).1
      else .error (lastPass budget models).2 := by
  rw [sortModels]
  split
  · next p h => simp [h]
  · next p waiting hw h =>
    have hne : waiting ≠ [] := fun e => hw e
    simp only [lastPass, leftover, h, hne, if_false, placeRemaining]
    split
    · next h' => simp [h']
    · next failures hf h' =>
      have hne' : failures ≠ [] := fun e => hf e
      simp [h', hne']

/-! ### A sort that succeeds -/

/-- A sort that succeeds is a run over all models. -/
theorem puts_of_sortModels {budget : Nat} {models : List Model} {p : Placement}
    (h : sortModels budget models = .ok p) :
    ∃ done, Puts Safe {} done p ∧ done.Perm models := by
  obtain ⟨ready, hready, hperm⟩ := passes_puts budget {} models
  have hsafe := hready.mono fun _ _ _ => Ready.safe
  rw [sortModels_eq] at h
  split at h
  · next hnone =>
    rw [hnone, List.append_nil] at hperm
    cases h
    exact ⟨ready, hsafe, hperm⟩
  · obtain ⟨done, failed, hputs, hfailed, hall⟩ :=
      placeEach_puts ((leftover budget models).map Model.qualifiedName)
        { (passes budget {} models).1 with fallback := true } [] (leftover budget models)
    split at h
    · next hnone =>
      cases h
      obtain rfl : failed = [] := List.map_eq_nil_iff.1 (hfailed.symm.trans hnone)
      rw [List.append_nil] at hall
      refine ⟨ready ++ done, hsafe.append (.fallBack hputs), ?_⟩
      exact ((hall.trans (perm_leftover budget models)).append_left ready).trans hperm
    · cases h

/-- If all names differ, the result of a sort is settled and holds the models, each under
its own name. -/
theorem settled_of_sortModels {budget : Nat} {models : List Model} {p : Placement}
    (hd : (models.map Model.qualifiedName).Nodup) (h : sortModels budget models = .ok p) :
    Settled p ∧ p.models.Perm (models.map fun m => (m.qualifiedName, m)) := by
  obtain ⟨done, hputs, hperm⟩ := puts_of_sortModels h
  obtain ⟨hsettled, hmodels⟩ := hputs.settled settled_empty
    (by simpa [names, Entries.keys] using (hperm.map _).nodup_iff.2 hd)
  refine ⟨hsettled, ?_⟩
  rw [hmodels]
  exact hperm.map _

/-- **A sort keeps every model once and flags what comes too early.** If all names differ
and the sort succeeds, the result has each model under its own name and nothing else, no
flag comes twice, and every reference of a model is another model in front of it, or the
model is flagged. -/
theorem sortModels_settles (budget : Nat) (models : List Model) (p : Placement)
    (hd : (models.map Model.qualifiedName).Nodup) (h : sortModels budget models = .ok p) :
    p.models.Perm (models.map fun m => (m.qualifiedName, m)) ∧ p.requireUpdate.Nodup ∧
      ∀ before name m after, p.models = before ++ (name, m) :: after →
        ∀ r ∈ m.references, (r ≠ name ∧ r ∈ Entries.keys before) ∨ name ∈ p.requireUpdate := by
  obtain ⟨hsettled, hperm⟩ := settled_of_sortModels hd h
  exact ⟨hperm, hsettled.nodup_flags,
    fun before name m after => hsettled.supplied before (name, m) after⟩

/-- A cart and an item that refer to each other, and a user of the cart that refers to
itself: within no extra pass all of them are flagged. -/
theorem sortModels_settles_ring :
    let models : List Model :=
      [{ name := "User", references := ⟨["Cart", "User"], by decide⟩ },
        { name := "Cart", references := ⟨["Item"], by decide⟩ },
        { name := "Item", references := ⟨["Cart"], by decide⟩ }]
    (models.map Model.qualifiedName).Nodup ∧ ∃ p, sortModels 0 models = .ok p ∧
      p.requireUpdate = ["User", "Cart", "Item"] ∧
      p.models.Perm (models.map fun m => (m.qualifiedName, m)) ∧ p.requireUpdate.Nodup ∧
      ∀ before name m after, p.models = before ++ (name, m) :: after →
        ∀ r ∈ m.references, (r ≠ name ∧ r ∈ Entries.keys before) ∨ name ∈ p.requireUpdate :=
  ⟨by decide, _, rfl, by decide, sortModels_settles 0 _ _ (by decide) rfl⟩

/-! ### A sort that fails -/

/-- A model dangles among others if it refers to a name that none of them has. -/
def Dangles (models : List Model) (m : Model) : Prop :=
  ∃ r ∈ m.references, r ∉ models.map Model.qualifiedName

instance (models : List Model) : DecidablePred (Dangles models) := fun m =>
  inferInstanceAs (Decidable (∃ r ∈ m.references, r ∉ models.map Model.qualifiedName))

theorem not_dangles_of_puts {models done : List Model} {p p' : Placement}
    (h : Puts Ready p done p') (hp : ∀ r ∈ p.names, r ∈ models.map Model.qualifiedName)
    (hdone : ∀ m ∈ done, m ∈ models) : ∀ m ∈ done, ¬ Dangles models m := by
  induction h with
  | nil => exact fun _ hm => absurd hm List.not_mem_nil
  | @put p p' m rest update hready _ ih =>
    have hname : m.qualifiedName ∈ models.map Model.qualifiedName :=
      List.mem_map_of_mem (hdone m List.mem_cons_self)
    have hrest := ih (fun r hr => (mem_names_place.1 hr).elim (fun e => e ▸ hname) (hp r))
      (fun m hm => hdone m (List.mem_cons_of_mem _ hm))
    intro m' hm'
    rcases List.mem_cons.1 hm' with rfl | hm'
    · rintro ⟨r, hr, hunknown⟩
      rcases missing_eq_nil.1 hready.1 r hr with rfl | hplaced
      · exact hunknown hname
      · exact hunknown (hp r hplaced)
    · exact hrest m' hm'
  | fallBack _ ih => exact ih hp hdone

/-- The last pass fails on exactly the models that dangle: whatever else is missing is a
name of the same pass. -/
theorem placeEach_fails {models : List Model} {remaining : List String} (p : Placement)
    (broken : List String) (ordered : List Model)
    (hknown : ∀ r, r ∈ models.map Model.qualifiedName ↔ r ∈ p.names ∨ r ∈ remaining)
    (hname : ∀ m ∈ ordered, m.qualifiedName ∈ remaining) :
    (placeEach remaining p broken ordered).2 = (ordered.filter (Dangles models)).map failure := by
  induction ordered generalizing p broken with
  | nil => rfl
  | cons m rest ih =>
    have hm := hname m List.mem_cons_self
    have hrest := fun m hm => hname m (List.mem_cons_of_mem _ hm)
    have hplaced : ∀ update r, r ∈ models.map Model.qualifiedName ↔
        r ∈ (p.place m.qualifiedName m update).names ∨ r ∈ remaining := by
      intro update r
      rw [mem_names_place, hknown]
      constructor
      · exact fun h => h.imp_left .inr
      · rintro ((rfl | h) | h)
        · exact .inr hm
        · exact .inl h
        · exact .inr h
    -- Something missing that is no name of this pass is a name of no model.
    have hdangles : Dangles models m ↔ ∃ r ∈ p.missing m.qualifiedName m, r ∉ remaining := by
      constructor
      · rintro ⟨r, hr, hunknown⟩
        rw [hknown, not_or] at hunknown
        exact ⟨r, mem_missing.2 ⟨hr, fun e => hunknown.2 (e ▸ hm), hunknown.1⟩, hunknown.2⟩
      · rintro ⟨r, hr, hunknown⟩
        obtain ⟨hr, _, hplaced⟩ := mem_missing.1 hr
        exact ⟨r, hr, fun h => ((hknown r).1 h).elim hplaced hunknown⟩
    simp only [placeEach]
    split
    · next hnone =>
      have hnot : ¬ Dangles models m := by
        rw [hdangles, List.isEmpty_iff.1 hnone]
        simp
      rw [ih _ _ (hplaced _) hrest, List.filter_cons_of_neg (by simpa using hnot)]
    · split
      · next hall =>
        have hnot : ¬ Dangles models m := by
          rw [hdangles]
          simpa using hall
        rw [ih _ _ (hplaced _) hrest, List.filter_cons_of_neg (by simpa using hnot)]
      · next hall =>
        have hyes : Dangles models m := by
          rw [hdangles]
          simpa using hall
        rw [ih _ _ hknown hrest, List.filter_cons_of_pos (by simpa using hyes), List.map_cons]
        rfl

/-- What the passes leave has every model that dangles. -/
theorem filter_dangles_waiting (budget : Nat) (models : List Model) :
    ((passes budget {} models).2.filter (Dangles models)).Perm
      (models.filter (Dangles models)) := by
  obtain ⟨ready, hready, hperm⟩ := passes_puts budget {} models
  have hnone := not_dangles_of_puts hready (by simp [names, Entries.keys])
    fun m hm => hperm.subset (List.mem_append_left _ hm)
  have h := hperm.filter (Dangles models)
  rw [List.filter_append, List.filter_eq_nil_iff.2 (by simpa using hnone)] at h
  exact h

theorem mem_names_iff (budget : Nat) (models : List Model) (r : String) :
    r ∈ models.map Model.qualifiedName ↔ r ∈ (passes budget {} models).1.names ∨
      r ∈ (leftover budget models).map Model.qualifiedName := by
  obtain ⟨ready, hready, hperm⟩ := passes_puts budget {} models
  rw [hready.mem_names, ← (hperm.map Model.qualifiedName).mem_iff,
    ((perm_leftover budget models).map Model.qualifiedName).mem_iff, List.map_append,
    List.mem_append]
  simp [names, Entries.keys]

/-- The last pass fails on exactly the models that dangle. -/
theorem lastPass_fails (budget : Nat) (models : List Model) :
    (lastPass budget models).2.Perm ((models.filter (Dangles models)).map failure) := by
  have hfails : (lastPass budget models).2 =
      ((leftover budget models).filter (Dangles models)).map failure :=
    placeEach_fails _ _ _ (mem_names_iff budget models) fun m hm => List.mem_map_of_mem hm
  rw [hfails]
  have hall := filter_dangles_waiting budget models
  exact (((perm_leftover budget models).filter _).trans hall).map _

theorem not_dangles_of_sortModels {budget : Nat} {models : List Model} {p : Placement}
    (h : sortModels budget models = .ok p) : models.filter (Dangles models) = [] := by
  rw [sortModels_eq] at h
  split at h
  · next hnone =>
    have hleft := filter_dangles_waiting budget models
    rwa [hnone, List.filter_nil, List.nil_perm] at hleft
  · split at h
    · next hnone =>
      have hpass := lastPass_fails budget models
      rwa [hnone, List.nil_perm, List.map_eq_nil_iff] at hpass
    · cases h

/-- What a sort reports is what dangles, and that is not nothing. -/
theorem perm_of_sortModels_error {budget : Nat} {models : List Model} {failures : List Unresolved}
    (h : sortModels budget models = .error failures) :
    failures ≠ [] ∧ failures.Perm ((models.filter (Dangles models)).map failure) := by
  rw [sortModels_eq] at h
  split at h
  · cases h
  · split at h
    · cases h
    · next hsome =>
      cases h
      exact ⟨hsome, lastPass_fails budget models⟩

theorem exists_dangles_iff {models : List Model} :
    (∃ m ∈ models, ∃ r ∈ m.references, r ∉ models.map Model.qualifiedName) ↔
      models.filter (Dangles models) ≠ [] := by
  constructor
  · rintro ⟨m, hm, hdangles⟩
    exact List.ne_nil_of_mem (List.mem_filter.2 ⟨hm, decide_eq_true hdangles⟩)
  · intro hne
    obtain ⟨m, hm⟩ := List.exists_mem_of_ne_nil _ hne
    obtain ⟨hm, hdangles⟩ := List.mem_filter.1 hm
    exact ⟨m, hm, of_decide_eq_true hdangles⟩

/-- **A sort fails exactly on references to nothing.** It fails if and only if some model
refers to a name that no model has, and then it names exactly the models that do, each
with all of its references, whatever the budget and the order in which they came. -/
theorem sortModels_fails_iff (budget : Nat) (models : List Model) :
    ((∃ failures, sortModels budget models = .error failures) ↔
      ∃ m ∈ models, ∃ r ∈ m.references, r ∉ models.map Model.qualifiedName) ∧
    ∀ failures, sortModels budget models = .error failures →
      failures.Perm ((models.filter (Dangles models)).map
        fun m => ⟨m.qualifiedName, m.references⟩) := by
  rw [exists_dangles_iff]
  refine ⟨⟨?_, fun hne => ?_⟩, fun failures h => (perm_of_sortModels_error h).2⟩
  · rintro ⟨failures, h⟩ hnone
    obtain ⟨hsome, hperm⟩ := perm_of_sortModels_error h
    rw [hnone, List.map_nil, List.perm_nil] at hperm
    exact hsome hperm
  · cases h : sortModels budget models with
    | error failures => exact ⟨failures, rfl⟩
    | ok p => exact absurd (not_dangles_of_sortModels h) hne

end Bindery
