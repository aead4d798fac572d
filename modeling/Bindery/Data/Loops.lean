import Mathlib.Data.List.Chain
import Mathlib.Logic.Relation
import Mathlib.Tactic.ByContra

/-! Following a relation among finitely many elements.

Steps from an element of a list to another one either end somewhere or come back: without a
loop some element has no step to any other (`exists_end`), so if each has one there is a loop
(`exists_loop`). A chain of steps meets nothing twice unless there is a loop (`nodup_of_isChain`);
if each step lessens a measure there is none (`no_loop_of_measure`), and no chain is longer than
the measure of its first element allows (`length_le_of_measure`). -/
namespace Bindery
open Relation

variable {α : Type} {R : α → α → Prop} {xs : List α}

/-- Without loops some element of a list leads to none of them. -/
theorem exists_end (hacyclic : ∀ a, ¬ TransGen R a a) (hne : xs ≠ []) :
    ∃ a ∈ xs, ∀ b ∈ xs, ¬ TransGen R a b := by
  induction xs with
  | nil => exact absurd rfl hne
  | cons x rest ih =>
    cases rest with
    | nil => exact ⟨x, List.mem_cons_self, fun b hb => List.mem_singleton.1 hb ▸ hacyclic x⟩
    | cons y rest =>
      obtain ⟨a, ha, hend⟩ := ih (List.cons_ne_nil y rest)
      by_cases hx : TransGen R a x
      · refine ⟨x, List.mem_cons_self, fun b hb hxb => ?_⟩
        obtain rfl | hb := List.mem_cons.1 hb
        · exact hacyclic _ hxb
        · exact hend b hb (hx.trans hxb)
      · refine ⟨a, List.mem_cons_of_mem x ha, fun b hb => ?_⟩
        obtain rfl | hb := List.mem_cons.1 hb
        · exact hx
        · exact hend b hb

/-- If each element of a list has a step to one of them, some steps come back. -/
theorem exists_loop (hne : xs ≠ []) (hnext : ∀ a ∈ xs, ∃ b ∈ xs, R a b) :
    ∃ a, TransGen R a a := by
  by_contra hnone
  obtain ⟨a, ha, hend⟩ := exists_end (not_exists.1 hnone) hne
  obtain ⟨b, hb, hab⟩ := hnext a ha
  exact hend b hb (.single hab)

/-- Without loops a chain of steps meets nothing twice. -/
theorem nodup_of_isChain (hacyclic : ∀ a, ¬ TransGen R a a) (h : xs.IsChain R) : xs.Nodup := by
  have hsteps : xs.IsChain (TransGen R) := h.imp fun _ _ => .single
  refine hsteps.pairwise.imp fun {a b} hab => ?_
  rintro rfl
  exact hacyclic a hab

section Measure
variable (measure : α → Nat)

/-- Steps that lessen a measure never come back. -/
theorem no_loop_of_measure (hless : ∀ a b, R a b → measure b < measure a) (a : α) :
    ¬ TransGen R a a := by
  have hsteps : ∀ b, TransGen R a b → measure b < measure a := by
    intro b hab
    induction hab with
    | single hstep => exact hless _ _ hstep
    | tail _ hstep ih => exact (hless _ _ hstep).trans ih
  exact fun hloop => Nat.lt_irrefl _ (hsteps a hloop)

/-- A chain of such steps goes no further than the measure does. -/
theorem length_le_of_measure (hless : ∀ a b, R a b → measure b < measure a) {a : α}
    (h : (a :: xs).IsChain R) : xs.length ≤ measure a := by
  induction xs generalizing a with
  | nil => exact Nat.zero_le _
  | cons b rest ih =>
    obtain ⟨hab, hrest⟩ := List.isChain_cons_cons.1 h
    have hb := ih hrest
    have hba := hless a b hab
    rw [List.length_cons]
    omega

end Measure

end Bindery
