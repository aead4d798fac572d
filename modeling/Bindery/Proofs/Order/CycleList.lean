import Mathlib.Data.List.Sort
import Mathlib.Order.Defs.LinearOrder
import Bindery.Proofs.Order.Cycles

/-! The cycles are listed in one way only.

A cycle lists its members in increasing order and the cycles come in increasing order of their
first members, so lists of cycles are equal if the same names lead to each other in them
(`mem_detectCycles`, `detectCycles_congr`). What is reported therefore says no more and no less
than which names lead to each other, and does not depend on the order of the models
(`detectCycles_exact`). -/
namespace Bindery

theorem compare_names_eq_lt {a b : String} : compare a b = .lt ↔ a < b :=
  compareOfLessAndEq_eq_lt

namespace ReferenceGraph
variable {g : ReferenceGraph}

/-! ### Cycles of a graph whose names come in order -/

theorem keys_closure (g : ReferenceGraph) : Entries.keys g.closure = Entries.keys g := by
  simp [closure, Entries.keys, Function.comp_def]

theorem pairwise_partners (hkeys : (Entries.keys g).Pairwise (· < ·)) (name : String)
    (reached : List String) : (partners g.closure name reached).Pairwise (· < ·) := by
  have hsub : (partners g.closure name reached).Sublist (Entries.keys g.closure) :=
    List.filter_sublist.map _
  rw [keys_closure] at hsub
  exact hkeys.sublist hsub

theorem pairwise_cycle (hkeys : (Entries.keys g).Pairwise (· < ·)) {cycle : List String}
    (hc : cycle ∈ g.cycles) : cycle.Pairwise (· < ·) := by
  obtain ⟨a, _, rfl, _⟩ := mem_cycles.1 hc
  exact pairwise_partners hkeys a _

theorem pairwise_cycles (hkeys : (Entries.keys g).Pairwise (· < ·)) :
    g.cycles.Pairwise (· < ·) := by
  have hclosed : g.closure.Pairwise fun e e' => e.1 < e'.1 := by
    rw [← keys_closure] at hkeys
    exact List.pairwise_map.1 hkeys
  have hlisted : (g.closure.map fun e => (e.1, g.closure.partners e.1 e.2)).Pairwise
      fun e e' => e.1 < e'.1 :=
    List.pairwise_map.2 hclosed
  refine hlisted.filterMap _ ?_
  rintro ⟨a, cycle⟩ ⟨b, cycle'⟩ hab c hc c' hc'
  have hc : (if cycle.head? = some a then some cycle else none) = some c := hc
  have hc' : (if cycle'.head? = some b then some cycle' else none) = some c' := hc'
  split at hc
  · next ha =>
    split at hc'
    · next hb =>
      obtain rfl := Option.some.inj hc
      obtain rfl := Option.some.inj hc'
      obtain ⟨rest, rfl⟩ := List.head?_eq_some_iff.1 ha
      obtain ⟨rest', rfl⟩ := List.head?_eq_some_iff.1 hb
      exact List.cons_lt_cons_iff.2 (.inl hab)
    · cases hc'
  · cases hc

theorem pairwise_keys_ofModels (models : List Model) :
    (Entries.keys (ofModels models)).Pairwise (· < ·) := by
  rw [keys_ofModels]
  exact (SortedSet.increasing _).imp compare_names_eq_lt.1

end ReferenceGraph

open Relation ReferenceGraph

variable {models models' : List Model} {cycle : List String}

/-! ### What a cycle is -/

/-- **A cycle is a list in increasing order of all names that lead to each other**, and every such
list is reported. -/
theorem mem_detectCycles :
    cycle ∈ detectCycles models ↔ cycle ≠ [] ∧ cycle.Pairwise (· < ·) ∧
      ∀ a ∈ cycle, ∀ b, b ∈ cycle ↔
        TransGen (Refers models) a b ∧ TransGen (Refers models) b a := by
  constructor
  · intro hc
    obtain ⟨a, ha⟩ := exists_mem_of_cycle hc
    exact ⟨List.ne_nil_of_mem ha, pairwise_cycle (pairwise_keys_ofModels models) hc,
      fun _ ha _ => mem_cycle_iff hc ha⟩
  · rintro ⟨hne, hincreasing, hmem⟩
    obtain ⟨a, ha⟩ := List.exists_mem_of_ne_nil cycle hne
    obtain ⟨cycle', hc', ha'⟩ := exists_cycle_iff.2 ((hmem a ha a).1 ha).1
    have hsame : cycle' = cycle :=
      (pairwise_cycle (pairwise_keys_ofModels models) hc').eq_of_mem_iff hincreasing
        fun b => (mem_cycle_iff hc' ha').trans (hmem a ha b).symm
    exact hsame ▸ hc'

theorem pairwise_detectCycles (models : List Model) :
    (detectCycles models).Pairwise (· < ·) :=
  pairwise_cycles (pairwise_keys_ofModels models)

/-- Models with the same references have the same cycles. -/
theorem detectCycles_congr (h : Refers models = Refers models') :
    detectCycles models = detectCycles models' := by
  have hordered' := pairwise_detectCycles models'
  refine (pairwise_detectCycles models).eq_of_mem_iff hordered' fun cycle => ?_
  rw [mem_detectCycles, mem_detectCycles, h]

/-- The order of the models has no part in what refers to what. -/
theorem refers_congr (h : models.Perm models') : Refers models = Refers models' := by
  funext a b
  simp only [Refers, h.mem_iff, (h.map Model.qualifiedName).mem_iff]

/-- Names on one cycle are those that lead to each other. -/
theorem exists_cycle_of_both_iff {a b : String} :
    (∃ cycle ∈ detectCycles models, a ∈ cycle ∧ b ∈ cycle) ↔
      TransGen (Refers models) a b ∧ TransGen (Refers models) b a := by
  constructor
  · rintro ⟨cycle, hc, ha, hb⟩
    exact (mem_cycle_iff hc ha).1 hb
  · rintro ⟨hab, hba⟩
    obtain ⟨cycle, hc, ha⟩ := exists_cycle_iff.2 (hab.trans hba)
    exact ⟨cycle, hc, ha, (mem_cycle_iff hc ha).2 ⟨hab, hba⟩⟩

theorem cycle_unique {cycle' : List String} {a : String} (hc : cycle ∈ detectCycles models)
    (hc' : cycle' ∈ detectCycles models) (ha : a ∈ cycle) (ha' : a ∈ cycle') : cycle = cycle' :=
  (mem_detectCycles.1 hc).2.1.eq_of_mem_iff (mem_detectCycles.1 hc').2.1 fun _ =>
    (mem_cycle_iff hc ha).trans (mem_cycle_iff hc' ha').symm

/-- **The reference cycles are reported exactly.** A name is on a cycle if and only if one or more
references to models lead from it back to it, two names are on one cycle if and only if each leads
to the other, and no name is on two. The members of a cycle, of which there is one at least, come
in increasing order, and so do the cycles, each of them once; so models in another order have the
same list of cycles. -/
theorem detectCycles_exact (models : List Model) :
    (∀ a, (∃ cycle ∈ detectCycles models, a ∈ cycle) ↔ TransGen (Refers models) a a) ∧
    (∀ a b, (∃ cycle ∈ detectCycles models, a ∈ cycle ∧ b ∈ cycle) ↔
      TransGen (Refers models) a b ∧ TransGen (Refers models) b a) ∧
    (∀ a, ∀ cycle ∈ detectCycles models, ∀ cycle' ∈ detectCycles models,
      a ∈ cycle → a ∈ cycle' → cycle = cycle') ∧
    (∀ cycle ∈ detectCycles models, cycle ≠ [] ∧ cycle.Pairwise (· < ·)) ∧
    (detectCycles models).Pairwise (· < ·) ∧
    ∀ models' : List Model, models'.Perm models → detectCycles models' = detectCycles models := by
  refine ⟨fun a => exists_cycle_iff, fun a b => exists_cycle_of_both_iff,
    fun a cycle hc cycle' hc' => cycle_unique hc hc', fun cycle hc => ?_,
    pairwise_detectCycles models, fun models' hperm => detectCycles_congr (refers_congr hperm)⟩
  obtain ⟨hne, hincreasing, _⟩ := mem_detectCycles.1 hc
  exact ⟨hne, hincreasing⟩

end Bindery
