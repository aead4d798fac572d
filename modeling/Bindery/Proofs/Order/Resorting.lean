import Bindery.Proofs.Order.FallingBack

/-! Sorting what is sorted.

Models that a run of passes placed come in an order in which one pass places all of them again
(`Puts.placeReady_append`). What the passes left, with a pass for each model, misses something
behind them, so a second sort stops on the same models (`passes_again`). If base classes form no
cycle these come arranged, and arranging leaves what is settled (`arrange_of_isSettled`); then the
last pass is the same too, and the second sort gives what the first one gave
(`sortModels_again`). -/
namespace Bindery

namespace Placement
variable {rule : Placement → Model → Bool → Prop} {p p' : Placement}
  {pending done : List Model}

/-! ### A pass over models that a pass has seen -/

theorem placeReady_of_missing (h : ∀ m ∈ pending, p.missing m.qualifiedName m ≠ []) :
    p.placeReady pending = (p, pending) := by
  induction pending with
  | nil => rfl
  | cons m rest ih =>
    have hm := h m List.mem_cons_self
    have hrest := ih fun m hm => h m (List.mem_cons_of_mem _ hm)
    rw [← List.isEmpty_eq_false_iff] at hm
    simp only [placeReady, hm, hrest, Bool.false_eq_true, if_false]

theorem passes_of_missing (budget : Nat) (h : ∀ m ∈ pending, p.missing m.qualifiedName m ≠ []) :
    passes budget p pending = (p, pending) := by
  have hidle := placeReady_of_missing h
  cases budget with
  | zero => rw [passes_zero, hidle]
  | succ budget => rw [passes_succ, hidle, if_pos (.inr rfl)]

/-- That base classes decided is never taken back. -/
theorem Puts.fallback_eq_true (h : Puts rule p done p') (hp : p.fallback = true) :
    p'.fallback = true := by
  induction h with
  | nil => exact hp
  | put _ _ ih => exact ih hp
  | fallBack _ ih => exact ih rfl

/-- A pass places again what a run of ready models has placed, in the order of the run, and goes
on with the rest. -/
theorem Puts.placeReady_append (h : Puts Ready p done p') (hsame : p'.fallback = p.fallback)
    (rest : List Model) : p.placeReady (done ++ rest) = p'.placeReady rest := by
  induction h with
  | nil => rfl
  | @put p p' m more update hready _ ih =>
    obtain ⟨hnone, rfl⟩ := hready
    rw [List.cons_append, placeReady, if_pos (List.isEmpty_iff.2 hnone)]
    exact ih hsame
  | @fallBack p p' ms hputs ih =>
    -- Nothing is noted on a run that ends with the note that it began with.
    have hnoted : p.fallback = true := hsame ▸ hputs.fallback_eq_true rfl
    have hp : { p with fallback := true } = p := by rw [← hnoted]
    rw [hp] at ih
    exact ih hsame

end Placement

namespace BaseClasses

theorem arrange_of_isSettled {placed : Placement} {order : List Model}
    (h : isSettled placed order = true) : arrange placed order = (order, .stable) := by
  rw [arrange, roundLimit, settle, if_neg List.not_mem_nil, if_pos h]

end BaseClasses

open Placement Relation

section Sorted
variable {budget : Nat} {models : List Model} {p : Placement}

/-- The passes over a sorted list place what they placed at first, and leave what they left at
first, as it was arranged. -/
theorem passes_again (hcount : models.length ≤ budget + 1)
    (hd : (models.map Model.qualifiedName).Nodup) (h : sortModels budget models = .ok p) :
    passes budget {} (Entries.values p.models) =
      ((passes budget {} models).1, leftover budget models) := by
  obtain ⟨ready, hready, _, hplaced, _⟩ := exists_ready budget hd
  have hvalues : Entries.values p.models = ready ++ leftover budget models := by
    rw [models_of_sortModels hd h, hplaced]
    simp [Entries.values, Function.comp_def]
  have hmissing : ∀ m ∈ leftover budget models,
      (passes budget {} models).1.missing m.qualifiedName m ≠ [] := fun m hm =>
    missing_of_passes hcount m ((perm_leftover budget models).mem_iff.1 hm)
  have hpass : placeReady {} (Entries.values p.models) =
      ((passes budget {} models).1, leftover budget models) := by
    rw [hvalues, hready.placeReady_append (fallback_passes budget {} models),
      placeReady_of_missing hmissing]
  cases hbudget : budget with
  | zero => rw [passes_zero, hpass, hbudget]
  | succ more =>
    rw [passes_succ, hpass, passes_of_missing more hmissing, ite_self, hbudget]

/-- If base classes form no cycle, what the passes leave of a sorted list is arranged as it was. -/
theorem leftover_again (hcount : models.length ≤ budget + 1)
    (hd : (models.map Model.qualifiedName).Nodup)
    (hacyclic : ∀ name, ¬ TransGen (Inherits models) name name)
    (h : sortModels budget models = .ok p) :
    leftover budget (Entries.values p.models) = leftover budget models := by
  have hsettled : BaseClasses.SettledTo (passes budget {} models).1 (leftover budget models)
      (leftover budget models).length := settledTo_leftover hd hacyclic
  rw [leftover, passes_again hcount hd h, BaseClasses.arrange_of_isSettled hsettled.isSettled]

/-- **A second sort changes nothing.** Let all names differ, let there be at most one model more
than passes may follow the first one, and let base classes form no cycle. If the sort succeeds,
then sorting its result gives this result again: the same models in the same order under the same
names, the same flags in the same order, and the same note whether base classes decided. -/
theorem sortModels_again (budget : Nat) (models : List Model) (p : Placement)
    (hcount : models.length ≤ budget + 1) (hd : (models.map Model.qualifiedName).Nodup)
    (hacyclic : ∀ name, ¬ TransGen (Inherits models) name name)
    (h : sortModels budget models = .ok p) :
    sortModels budget (Entries.values p.models) = .ok p := by
  have hpasses := passes_again hcount hd h
  have hlast : lastPass budget (Entries.values p.models) = lastPass budget models := by
    rw [lastPass, leftover_again hcount hd hacyclic h, hpasses, lastPass]
  have hnone : leftover budget models = [] ↔ (passes budget {} models).2 = [] := by
    rw [← List.length_eq_zero_iff, (perm_leftover budget models).length_eq,
      List.length_eq_zero_iff]
  have hagain : sortModels budget (Entries.values p.models) = sortModels budget models := by
    rw [sortModels_eq, sortModels_eq, hlast, hpasses]
    simp only [hnone]
  rw [hagain, h]

/-- A log in front of the user that it refers to, a cart and an item that refer to each other, and
a kind of cart that comes first: the cycle makes base classes decide, both times. -/
theorem sortModels_again_around_cycle :
    let models : List Model :=
      [{ name := "Basket", bases := ["Cart"], references := ⟨["Cart"], by decide⟩ },
        { name := "Log", references := ⟨["User"], by decide⟩ },
        { name := "Cart", references := ⟨["Item"], by decide⟩ },
        { name := "Item", references := ⟨["Cart"], by decide⟩ },
        { name := "User" }]
    models.length ≤ defaultPasses + 1 ∧ (models.map Model.qualifiedName).Nodup ∧
      (∀ name, ¬ TransGen (Inherits models) name name) ∧
      ∃ p, sortModels defaultPasses models = .ok p ∧ p.fallback = true ∧
        p.names = ["User", "Log", "Cart", "Item", "Basket"] ∧
        p.requireUpdate = ["Cart", "Item", "Basket"] ∧
        sortModels defaultPasses (Entries.values p.models) = .ok p := by
  intro models
  have hcount : models.length ≤ defaultPasses + 1 := by decide
  have hd : (models.map Model.qualifiedName).Nodup := by decide
  have hacyclic : ∀ name, ¬ TransGen (Inherits models) name name :=
    acyclic_of_measure (["Cart", "Basket"].idxOf ·) (by decide)
  exact ⟨hcount, hd, hacyclic, _, rfl, rfl, by decide, by decide,
    sortModels_again defaultPasses models _ hcount hd hacyclic rfl⟩

/-- With too few passes a second sort gets further: `B` waits for `C` at first, and then stands
behind it. -/
example :
    let models : List Model :=
      [{ name := "A", references := ⟨["B"], by decide⟩ },
        { name := "B", references := ⟨["C"], by decide⟩ }, { name := "C" }]
    ∃ p p', sortModels 0 models = .ok p ∧ sortModels 0 (Entries.values p.models) = .ok p' ∧
      p.names = ["C", "A", "B"] ∧ p'.names = ["C", "B", "A"] :=
  ⟨_, _, rfl, rfl, by decide, by decide⟩

end Sorted

end Bindery
