import Mathlib.Data.List.Basic
import Mathlib.Logic.Relation
import Bindery.Order.Cycles

/-! Cycles are what leads back to itself.

`Refers` is the reference of one model to another. Exploring from a name finds all that
it leads to: a name's references wait once, so the waiting names and the references that
were not followed yet are together never more than the steps that are left
(`mem_explore`). So a name's partners are the names that it leads to and that lead back
(`mem_partners`), partners have the same partners, and the cycle that is listed at the
first of them is that of them all (`mem_cycle_iff`, `exists_cycle_iff`). -/
namespace Bindery

/-- One name refers to another: a model of the one name has the other, which is also the
name of a model, among its references. -/
def Refers (models : List Model) (a b : String) : Prop :=
  (∃ m ∈ models, m.qualifiedName = a ∧ b ∈ m.references) ∧ b ∈ models.map Model.qualifiedName

namespace ReferenceGraph
open Relation

/-- One name refers to another in a graph. -/
def Step (g : ReferenceGraph) (a b : String) : Prop := b ∈ g.next a

/-! ### Exploring -/

section Explore
variable {g : ReferenceGraph} {name : String} {waiting reached : List String}

/-- How many references were not followed when some names have been reached. -/
def unfollowed (g : ReferenceGraph) (reached : List String) : Nat :=
  edges (g.filter fun e => e.1 ∉ reached)

theorem unfollowed_nil (g : ReferenceGraph) : g.unfollowed [] = g.edges := by
  rw [unfollowed, List.filter_eq_self.2 fun _ _ => by simp]

theorem edges_cons (e : String × List String) (g : ReferenceGraph) :
    edges (e :: g) = e.2.length + edges g := rfl

/-- To reach a name is to follow its references. -/
theorem unfollowed_cons (hkeys : (Entries.keys g).Nodup) (hnew : name ∉ reached) :
    (g.next name).length + g.unfollowed (name :: reached) = g.unfollowed reached := by
  induction g with
  | nil => rfl
  | cons e rest ih =>
    obtain ⟨key, refs⟩ := e
    obtain ⟨hkey, hrest⟩ := List.nodup_cons.1 hkeys
    by_cases he : name = key
    · -- The name does not come again, so what is left of the others is the same.
      subst he
      have hnext : next ((name, refs) :: rest) name = refs := by simp [next]
      have hothers : rest.filter (fun e => e.1 ∉ name :: reached) =
          rest.filter (fun e => e.1 ∉ reached) := by
        refine List.filter_congr fun e he => ?_
        have hne : e.1 ≠ name := fun h => hkey (List.mem_map.2 ⟨e, he, h⟩)
        simp [hne]
      rw [hnext, unfollowed, unfollowed, List.filter_cons_of_neg (by simp),
        List.filter_cons_of_pos (by simpa using hnew), hothers, edges_cons]
    · have hnext : next ((key, refs) :: rest) name = next rest name := by
        simp [next, List.lookup_cons, beq_false_of_ne he]
      have hkept : key ∉ name :: reached ↔ key ∉ reached := by simp [Ne.symm he]
      have hih := ih hrest
      simp only [unfollowed] at hih
      rw [hnext, unfollowed, unfollowed, List.filter_cons, List.filter_cons]
      simp only [hkept]
      split
      · rw [edges_cons, edges_cons]
        omega
      · exact hih

/-- From what was reached, references lead to what was reached or through what waits. -/
theorem reached_or_waiting
    (hclosed : ∀ a ∈ reached, ∀ b, Step g a b → b ∈ reached ∨ b ∈ waiting) {a b : String}
    (ha : a ∈ reached) (hab : ReflTransGen (Step g) a b) :
    b ∈ reached ∨ ∃ c ∈ waiting, ReflTransGen (Step g) c b := by
  induction hab with
  | refl => exact .inl ha
  | @tail c d _ hcd ih =>
    obtain hc | ⟨w, hw, hwc⟩ := ih
    · exact (hclosed c hc d hcd).imp_right fun hd => ⟨d, hd, .refl⟩
    · exact .inr ⟨w, hw, hwc.tail hcd⟩

/-- With enough steps, exploring finds what was reached and all that what waits leads to. -/
theorem mem_explore (hkeys : (Entries.keys g).Nodup) (fuel : Nat) {b : String}
    (hfuel : waiting.length + g.unfollowed reached ≤ fuel)
    (hclosed : ∀ a ∈ reached, ∀ b, Step g a b → b ∈ reached ∨ b ∈ waiting) :
    b ∈ explore g.next fuel waiting reached ↔
      b ∈ reached ∨ ∃ a ∈ waiting, ReflTransGen (Step g) a b := by
  induction fuel generalizing waiting reached with
  | zero =>
    obtain rfl : waiting = [] := List.length_eq_zero_iff.1 (by omega)
    simp [explore]
  | succ fuel ih =>
    cases waiting with
    | nil => simp [explore]
    | cons a waiting =>
      rw [List.length_cons] at hfuel
      rw [explore]
      split
      · next ha =>
        have hclosed' : ∀ a ∈ reached, ∀ b, Step g a b → b ∈ reached ∨ b ∈ waiting := by
          intro c hc d hcd
          obtain hd | hd := hclosed c hc d hcd
          · exact .inl hd
          · exact (List.mem_cons.1 hd).imp_left fun (e : d = a) => e ▸ ha
        rw [ih (by omega) hclosed']
        simp only [List.mem_cons, exists_eq_or_imp]
        exact ⟨fun h => h.imp_right .inr, fun h => h.elim .inl fun h =>
          h.elim (reached_or_waiting hclosed' ha) .inr⟩
      · next ha =>
        have hcount := unfollowed_cons hkeys ha
        have hclosed' : ∀ c ∈ a :: reached, ∀ d, Step g c d →
            d ∈ a :: reached ∨ d ∈ g.next a ++ waiting := by
          intro c hc d hcd
          obtain rfl | hc := List.mem_cons.1 hc
          · exact .inr (List.mem_append_left _ hcd)
          · obtain hd | hd := hclosed c hc d hcd
            · exact .inl (List.mem_cons_of_mem _ hd)
            · exact (List.mem_cons.1 hd).imp (fun (e : d = a) => e ▸ List.mem_cons_self)
                (List.mem_append_right _)
        rw [ih (by rw [List.length_append]; omega) hclosed']
        simp only [List.mem_cons, List.mem_append, or_and_right, exists_or, exists_eq_left,
          ReflTransGen.cases_head_iff (a := a), Step]
        grind

end Explore

/-! ### What is reachable -/

variable {g : ReferenceGraph}

/-- **What a name reaches is what references lead to.** -/
theorem mem_reachable (hkeys : (Entries.keys g).Nodup) {a b : String} :
    b ∈ g.reachable a ↔ TransGen (Step g) a b := by
  have hcount := unfollowed_cons hkeys (List.not_mem_nil (a := a))
  have hall := unfollowed_nil g
  rw [reachable, mem_explore hkeys _ (by omega) (fun c hc => absurd hc List.not_mem_nil),
    TransGen.head'_iff]
  simp [Step]

theorem mem_partners (hkeys : (Entries.keys g).Nodup) {a b : String} :
    b ∈ partners g.closure a (g.reachable a) ↔
      b ∈ Entries.keys g ∧ TransGen (Step g) a b ∧ TransGen (Step g) b a := by
  have hmem : b ∈ partners g.closure a (g.reachable a) ↔
      b ∈ Entries.keys g ∧ b ∈ g.reachable a ∧ a ∈ g.reachable b := by
    simp only [partners, closure, Entries.keys, List.mem_map, List.mem_filter]
    grind
  rw [hmem, mem_reachable hkeys, mem_reachable hkeys]

/-! ### The cycles of a graph -/

theorem mem_cycles {cycle : List String} :
    cycle ∈ g.cycles ↔ ∃ a ∈ Entries.keys g,
      cycle = partners g.closure a (g.reachable a) ∧ cycle.head? = some a := by
  simp only [cycles, closure, Entries.keys, List.mem_filterMap, List.mem_map]
  grind

/-- Who is on a cycle has the others of this cycle as partners. -/
theorem mem_cycle (hkeys : (Entries.keys g).Nodup) {cycle : List String} (hc : cycle ∈ g.cycles)
    {a b : String} (ha : a ∈ cycle) :
    b ∈ cycle ↔ b ∈ Entries.keys g ∧ TransGen (Step g) a b ∧ TransGen (Step g) b a := by
  obtain ⟨c, _, rfl, _⟩ := mem_cycles.1 hc
  obtain ⟨_, hca, hac⟩ := (mem_partners hkeys).1 ha
  rw [mem_partners hkeys]
  exact ⟨fun ⟨hb, hcb, hbc⟩ => ⟨hb, hac.trans hcb, hbc.trans hca⟩,
    fun ⟨hb, hab, hba⟩ => ⟨hb, hca.trans hab, hba.trans hac⟩⟩

/-- Partners have the same partners, in the same order. -/
theorem partners_congr (hkeys : (Entries.keys g).Nodup) {a c : String}
    (hac : TransGen (Step g) a c) (hca : TransGen (Step g) c a) :
    partners g.closure a (g.reachable a) = partners g.closure c (g.reachable c) := by
  have hforth : ∀ b, b ∈ g.reachable a ↔ b ∈ g.reachable c := fun b => by
    rw [mem_reachable hkeys, mem_reachable hkeys]
    exact ⟨hca.trans, hac.trans⟩
  have hback : ∀ b, a ∈ g.reachable b ↔ c ∈ g.reachable b := fun b => by
    rw [mem_reachable hkeys, mem_reachable hkeys]
    exact ⟨fun h => h.trans hac, fun h => h.trans hca⟩
  rw [partners, partners]
  refine congrArg Entries.keys (List.filter_congr fun e he => ?_)
  obtain ⟨e, _, rfl⟩ := List.mem_map.1 he
  simp only [hforth, hback]

/-- **What leads back to itself is on a cycle that is listed.** -/
theorem exists_mem_cycles (hkeys : (Entries.keys g).Nodup) {a : String} :
    (∃ cycle ∈ g.cycles, a ∈ cycle) ↔ a ∈ Entries.keys g ∧ TransGen (Step g) a a := by
  constructor
  · rintro ⟨cycle, hc, ha⟩
    obtain ⟨hkey, haa, _⟩ := (mem_cycle hkeys hc ha).1 ha
    exact ⟨hkey, haa⟩
  · rintro ⟨hkey, haa⟩
    have ha := (mem_partners hkeys).2 ⟨hkey, haa, haa⟩
    -- The cycle is listed at the first partner.
    cases hp : partners g.closure a (g.reachable a) with
    | nil => exact absurd (hp ▸ ha) List.not_mem_nil
    | cons c rest =>
      obtain ⟨hckey, hac, hca⟩ := (mem_partners hkeys).1 (hp ▸ List.mem_cons_self : c ∈ _)
      rw [partners_congr hkeys hac hca] at hp ha
      exact ⟨_, mem_cycles.2 ⟨c, hckey, rfl, by rw [hp, List.head?_cons]⟩, ha⟩

/-! ### The cycles among models -/

theorem keys_ofModels (models : List Model) :
    Entries.keys (ofModels models) = (SortedSet.ofList (models.map Model.qualifiedName)).toList := by
  simp [ofModels, Entries.keys, Function.comp_def]

theorem nodup_keys_ofModels (models : List Model) : (Entries.keys (ofModels models)).Nodup := by
  rw [keys_ofModels]
  exact (SortedSet.ofList _).nodup

theorem mem_keys_ofModels {models : List Model} {a : String} :
    a ∈ Entries.keys (ofModels models) ↔ a ∈ models.map Model.qualifiedName := by
  rw [keys_ofModels, SortedSet.mem_toList, SortedSet.mem_ofList]

/-- The graph has the references of the models. -/
theorem step_ofModels (models : List Model) : Step (ofModels models) = Refers models := by
  funext a b
  refine propext ?_
  by_cases ha : a ∈ models.map Model.qualifiedName
  · have hlisted := mem_keys_ofModels.2 ha
    rw [keys_ofModels] at hlisted
    have hnext : b ∈ (ofModels models).next a ↔ ∃ m ∈ models, m.qualifiedName = a ∧
        b ∈ m.references ∧ b ∈ models.map Model.qualifiedName := by
      rw [next, ofModels]
      simp only [Entries.keys, List.map_map, Function.comp_def]
      rw [List.lookup_graph _ hlisted]
      simp [SortedSet.mem_toList, and_assoc]
    rw [Step, hnext, Refers]
    grind
  · rw [Step, next, Entries.lookup_eq_none (mt mem_keys_ofModels.1 ha)]
    refine iff_of_false (by simp) ?_
    rintro ⟨⟨m, hm, rfl, _⟩, _⟩
    exact ha (List.mem_map_of_mem hm)

end ReferenceGraph

open Relation ReferenceGraph

theorem mem_of_leads {models : List Model} {a b : String} (h : TransGen (Refers models) a b) :
    b ∈ models.map Model.qualifiedName := by
  cases h with
  | single h => exact h.2
  | tail _ h => exact h.2

theorem exists_mem_of_cycle {models : List Model} {cycle : List String}
    (hc : cycle ∈ detectCycles models) : ∃ a, a ∈ cycle := by
  obtain ⟨a, _, _, ha⟩ := mem_cycles.1 hc
  exact ⟨a, List.mem_of_head? ha⟩

/-- What is on a reported cycle are the names that lead to each other. -/
theorem mem_cycle_iff {models : List Model} {cycle : List String}
    (hc : cycle ∈ detectCycles models) {a b : String} (ha : a ∈ cycle) :
    b ∈ cycle ↔ TransGen (Refers models) a b ∧ TransGen (Refers models) b a := by
  rw [mem_cycle (nodup_keys_ofModels models) hc ha, mem_keys_ofModels, step_ofModels]
  exact and_iff_right_of_imp fun h => mem_of_leads h.1

/-- What is on some reported cycle are the names that lead back to themselves. -/
theorem exists_cycle_iff {models : List Model} {a : String} :
    (∃ cycle ∈ detectCycles models, a ∈ cycle) ↔ TransGen (Refers models) a a := by
  rw [detectCycles, exists_mem_cycles (nodup_keys_ofModels models), mem_keys_ofModels, step_ofModels]
  exact and_iff_right_of_imp mem_of_leads

end Bindery
