import Bindery.Data.Loops
import Bindery.Proofs.Order.Bases
import Bindery.Proofs.Order.CycleList

/-! When base classes have to decide the order.

A pass that places something leaves fewer models than came to it, so with one pass for each model
the passes go on until nothing waits or each model that waits misses something
(`missing_of_passes`). If every reference is the name of a model, what is missing waits too, and
waiting for one another comes back to where it began: the models form a cycle of more than one
(`exists_cycle_of_waiting`). On the other hand what the passes place stands behind all others that
it refers to, which no two members of a cycle can do of each other. So the sort falls back on base
classes exactly if there is a cycle of two or more (`fallback_iff_cycle`). -/
namespace Bindery

namespace Placement
variable {p : Placement} {pending : List Model}

/-! ### What the passes leave -/

theorem length_placeReady_le (p : Placement) (pending : List Model) :
    (p.placeReady pending).2.length ≤ pending.length := by
  obtain ⟨done, _, hperm⟩ := placeReady_puts p pending
  have hlength := hperm.length_eq
  rw [List.length_append] at hlength
  omega

/-- A pass that places nothing changes nothing, and each model misses something. -/
theorem placeReady_idle (h : (p.placeReady pending).2.length = pending.length) :
    p.placeReady pending = (p, pending) ∧ ∀ m ∈ pending, p.missing m.qualifiedName m ≠ [] := by
  induction pending with
  | nil => exact ⟨rfl, fun _ hm => absurd hm List.not_mem_nil⟩
  | cons m rest ih =>
    simp only [placeReady] at h ⊢
    split
    · next hready =>
      rw [if_pos hready] at h
      have hle := length_placeReady_le (p.place m.qualifiedName m m.refersToItself) rest
      rw [List.length_cons] at h
      omega
    · next hwaits =>
      rw [if_neg hwaits] at h
      obtain ⟨hidle, hmissing⟩ := ih (Nat.succ.inj h)
      rw [hidle]
      refine ⟨rfl, fun m' hm' => ?_⟩
      obtain rfl | hm' := List.mem_cons.1 hm'
      · rwa [List.isEmpty_iff] at hwaits
      · exact hmissing m' hm'

/-- Passes stop when nothing waits or nothing was placed: then what waits misses something. -/
theorem missing_of_stop (h : (p.placeReady pending).2.length = 0 ∨
    (p.placeReady pending).2.length = pending.length) :
    ∀ m ∈ (p.placeReady pending).2, (p.placeReady pending).1.missing m.qualifiedName m ≠ [] := by
  cases h with
  | inl hnone =>
    rw [List.length_eq_zero_iff.1 hnone]
    exact fun _ hm => absurd hm List.not_mem_nil
  | inr hidle =>
    obtain ⟨hsame, hmissing⟩ := placeReady_idle hidle
    rw [hsame]
    exact hmissing

/-- With a pass for each model, whatever waits in the end misses something. -/
theorem missing_of_passes {budget : Nat} (hcount : pending.length ≤ budget + 1) :
    ∀ m ∈ (passes budget p pending).2,
      (passes budget p pending).1.missing m.qualifiedName m ≠ [] := by
  -- The induction is on the budget: a pass that does not stop has placed a model.
  induction budget generalizing p pending with
  | zero =>
    have hle := length_placeReady_le p pending
    rw [passes_zero]
    exact missing_of_stop (by omega)
  | succ budget ih =>
    have hle := length_placeReady_le p pending
    rw [passes_succ]
    split
    · next hstop => exact missing_of_stop hstop
    · next hgo => exact ih (by omega)

/-! ### The note that base classes decided -/

theorem fallback_placeReady (p : Placement) (pending : List Model) :
    (p.placeReady pending).1.fallback = p.fallback := by
  induction pending generalizing p with
  | nil => rfl
  | cons m rest ih =>
    simp only [placeReady]
    split
    · exact ih _
    · exact ih p

theorem fallback_passes (budget : Nat) (p : Placement) (pending : List Model) :
    (passes budget p pending).1.fallback = p.fallback := by
  induction budget generalizing p pending with
  | zero => rw [passes_zero, fallback_placeReady]
  | succ budget ih =>
    rw [passes_succ]
    split
    · exact fallback_placeReady p pending
    · rw [ih, fallback_placeReady]

theorem fallback_placeEach (remaining : List String) (p : Placement) (broken : List String)
    (ordered : List Model) : (placeEach remaining p broken ordered).1.fallback = p.fallback := by
  induction ordered generalizing p broken with
  | nil => rfl
  | cons m rest ih =>
    simp only [placeEach]
    split
    · exact ih _ _
    · split
      · exact ih _ _
      · exact ih _ _

end Placement

open Placement Relation

section Sorted
variable {budget : Nat} {models : List Model} {p : Placement}

/-- Base classes are asked exactly if the passes leave something. -/
theorem fallback_iff_waiting (h : sortModels budget models = .ok p) :
    p.fallback = true ↔ (passes budget {} models).2 ≠ [] := by
  rw [sortModels_eq] at h
  split at h
  · next hnone =>
    cases h
    rw [fallback_passes]
    exact iff_of_false Bool.false_ne_true (not_not_intro hnone)
  · next hsome =>
    split at h
    · cases h
      rw [lastPass, fallback_placeEach]
      exact iff_of_true rfl hsome
    · cases h

/-- If every reference is the name of a model, the sort succeeds. -/
theorem exists_sortModels (budget : Nat)
    (hknown : ∀ m ∈ models, ∀ r ∈ m.references, r ∈ models.map Model.qualifiedName) :
    ∃ p, sortModels budget models = .ok p := by
  cases h : sortModels budget models with
  | ok p => exact ⟨p, rfl⟩
  | error failures =>
    obtain ⟨hsome, hperm⟩ := perm_of_sortModels_error h
    have hnone : models.filter (Dangles models) = [] := by
      by_contra hne
      obtain ⟨m, hm, r, hr, hunknown⟩ := exists_dangles_iff.2 hne
      exact hunknown (hknown m hm r hr)
    rw [hnone, List.map_nil, List.perm_nil] at hperm
    exact absurd hperm hsome

/-! ### Cycles of more than one -/

/-- Names that lead to each other and differ make a cycle of two or more. -/
theorem exists_long_cycle_iff :
    (∃ cycle ∈ detectCycles models, 2 ≤ cycle.length) ↔
      ∃ a b, a ≠ b ∧ TransGen (Refers models) a b ∧ TransGen (Refers models) b a := by
  constructor
  · rintro ⟨cycle, hc, hlength⟩
    obtain ⟨_, hincreasing, hmem⟩ := mem_detectCycles.1 hc
    match cycle, hlength with
    | a :: b :: rest, _ =>
      have hab : a < b := (List.pairwise_cons.1 hincreasing).1 b List.mem_cons_self
      obtain ⟨hforth, hback⟩ := (hmem a List.mem_cons_self b).1 (by simp)
      exact ⟨a, b, fun e => String.lt_irrefl b (e ▸ hab), hforth, hback⟩
  · rintro ⟨a, b, hne, hforth, hback⟩
    obtain ⟨cycle, hc, ha, hb⟩ := exists_cycle_of_both_iff.2 ⟨hforth, hback⟩
    refine ⟨cycle, hc, ?_⟩
    match cycle, ha, hb with
    | [c], ha, hb =>
      exact absurd ((List.mem_singleton.1 ha).trans (List.mem_singleton.1 hb).symm) hne
    | _ :: _ :: rest, _, _ => simp

/-- Models that wait, each for another one, form a cycle of two or more. -/
theorem exists_cycle_of_waiting (hcount : models.length ≤ budget + 1)
    (hknown : ∀ m ∈ models, ∀ r ∈ m.references, r ∈ models.map Model.qualifiedName)
    (hsome : (passes budget {} models).2 ≠ []) :
    ∃ a b, a ≠ b ∧ TransGen (Refers models) a b ∧ TransGen (Refers models) b a := by
  obtain ⟨ready, hputs, hperm⟩ := passes_puts budget {} models
  have hnext : ∀ a ∈ (passes budget {} models).2.map Model.qualifiedName,
      ∃ b ∈ (passes budget {} models).2.map Model.qualifiedName, a ≠ b ∧ Refers models a b := by
    intro a ha
    obtain ⟨m, hm, rfl⟩ := List.mem_map.1 ha
    have hmodel : m ∈ models := hperm.subset (List.mem_append_right ready hm)
    obtain ⟨r, hmissing⟩ := List.exists_mem_of_ne_nil _ (missing_of_passes hcount m hm)
    obtain ⟨hr, hself, hlate⟩ := mem_missing.1 hmissing
    have hname := hknown m hmodel r hr
    have hwaits := ((mem_names_iff budget models r).1 hname).resolve_left hlate
    refine ⟨r, ?_, hself.symm, ⟨m, hmodel, rfl, hr⟩, hname⟩
    exact ((perm_leftover budget models).map Model.qualifiedName).subset hwaits
  obtain ⟨a, hloop⟩ := exists_loop (by simpa using hsome) hnext
  -- The first step of the loop leads to another name.
  obtain ⟨b, ⟨hne, hab⟩, hba⟩ := TransGen.head'_iff.1 hloop
  have hback : ReflTransGen (Refers models) b a :=
    ReflTransGen.mono (fun _ _ h => h.2) _ _ hba
  exact ⟨a, b, hne, .single hab, (reflTransGen_iff_eq_or_transGen.1 hback).resolve_left hne⟩

/-- If the passes leave nothing, references lead only to the front of the order. -/
theorem idxOf_le_of_leads (hd : (models.map Model.qualifiedName).Nodup)
    (h : sortModels budget models = .ok p) (hnone : (passes budget {} models).2 = []) {a b : String}
    (hab : TransGen (Refers models) a b) : p.names.idxOf b ≤ p.names.idxOf a := by
  have hstep : ∀ a b, Refers models a b → p.names.idxOf b ≤ p.names.idxOf a := by
    rintro a b ⟨⟨m, hm, rfl, hr⟩, _⟩
    by_cases hself : b = m.qualifiedName
    · rw [hself]
    · have hplaced : m.qualifiedName ∈ (passes budget {} models).1.names := by
        have hleft := perm_leftover budget models
        rw [hnone, List.perm_nil] at hleft
        simpa [hleft] using (mem_names_iff budget models _).1 (List.mem_map_of_mem hm)
      exact Nat.le_of_lt (precedes_of_placed hd h hm hplaced hr hself)
  induction hab with
  | single hab => exact hstep _ _ hab
  | tail _ hbc ih => exact (hstep _ _ hbc).trans ih

/-- **The sort falls back on base classes exactly for cycles of two or more.** Let all names
differ, let every reference be the name of a model, and let there be at most one model more than
passes may follow the first one. Then the sort succeeds, and base classes decide the end of its
order if and only if the models have a reference cycle of two or more. -/
theorem fallback_iff_cycle (budget : Nat) (models : List Model)
    (hcount : models.length ≤ budget + 1) (hd : (models.map Model.qualifiedName).Nodup)
    (hknown : ∀ m ∈ models, ∀ r ∈ m.references, r ∈ models.map Model.qualifiedName) :
    ∃ p, sortModels budget models = .ok p ∧
      (p.fallback = true ↔ ∃ cycle ∈ detectCycles models, 2 ≤ cycle.length) := by
  obtain ⟨p, h⟩ := exists_sortModels budget hknown
  refine ⟨p, h, ?_⟩
  rw [fallback_iff_waiting h, exists_long_cycle_iff]
  constructor
  · exact exists_cycle_of_waiting hcount hknown
  · rintro ⟨a, b, hne, hab, hba⟩ hnone
    have hplace : p.names.idxOf a = p.names.idxOf b :=
      Nat.le_antisymm (idxOf_le_of_leads hd h hnone hba) (idxOf_le_of_leads hd h hnone hab)
    have hmem : a ∈ p.names := by
      obtain ⟨m, hm, rfl⟩ := List.mem_map.1 (mem_of_leads hba)
      exact List.mem_map_of_mem ((mem_models_iff hd h hm).2 rfl)
    exact hne ((List.idxOf_inj hmem).1 hplace)

/-- A tree that refers to itself, and a cart and an item that refer to each other, with a pass for
each of them: base classes decide, because of the cart and the item and not of the tree. -/
theorem fallback_of_cart_and_item :
    let models : List Model :=
      [{ name := "Tree", references := ⟨["Tree"], by decide⟩ },
        { name := "Cart", references := ⟨["Item", "Tree"], by decide⟩ },
        { name := "Item", references := ⟨["Cart"], by decide⟩ }]
    models.length ≤ 2 + 1 ∧ (models.map Model.qualifiedName).Nodup ∧
      (∀ m ∈ models, ∀ r ∈ m.references, r ∈ models.map Model.qualifiedName) ∧
      detectCycles models = [["Cart", "Item"], ["Tree"]] ∧
      ∃ p, sortModels 2 models = .ok p ∧ p.fallback = true ∧
        (p.fallback = true ↔ ∃ cycle ∈ detectCycles models, 2 ≤ cycle.length) := by
  intro models
  have hcount : models.length ≤ 2 + 1 := by decide
  have hd : (models.map Model.qualifiedName).Nodup := by decide
  have hknown : ∀ m ∈ models, ∀ r ∈ m.references, r ∈ models.map Model.qualifiedName := by decide
  have hcycles : detectCycles models = [["Cart", "Item"], ["Tree"]] := by decide
  obtain ⟨p, h, hiff⟩ := fallback_iff_cycle 2 models hcount hd hknown
  exact ⟨hcount, hd, hknown, hcycles, p, h, hiff.2 ⟨_, hcycles ▸ List.mem_cons_self, by decide⟩,
    hiff⟩

end Sorted

end Bindery
