import Mathlib.Data.List.SplitBy
import Bindery.Data.StableSort
import Bindery.Proofs.Layout.Places

/-! Namespaces as neighbours.

A package is planned in one walk: the models are sorted by namespace in decreasing order, those of
one namespace staying in the order in which they came, and each row of neighbours of one namespace
is placed as a unit. The sort is stable, so such a row is all of a namespace, in order
(`neighbours_eq`), and the walk makes the same package as taking the namespaces one by one
(`ofModels_eq_foldl_place`). -/
namespace Bindery.Partition

/-- Whether the namespace of `b` is no greater than that of `a`. -/
def notAfter (a b : Model) : Bool := (compare b.path a.path).isLE

/-- Rows of neighbours of one namespace, after a stable sort in decreasing order. -/
def neighbours (models : List Model) : List (List Model) :=
  (stableSort notAfter models).splitBy fun a b => a.path = b.path

/-- Place a row of models as the unit of the namespace of its first one. -/
def place (slots : Partition) : List Model → Partition
  | [] => slots
  | m :: rest =>
    let slots := slots.addAncestors m.path
    let (key, kind) := slots.placeOf m.path
    Entries.put key (.planned ⟨key, m.path, kind, m :: rest⟩) slots

/-! ### The order -/

section Order

theorem notAfter_total (a b : Model) : notAfter a b = true ∨ notAfter b a = true := by
  have hswap : compare a.path b.path = (compare b.path a.path).swap := Std.OrientedCmp.eq_swap
  rw [notAfter, notAfter, hswap]
  cases compare b.path a.path with
  | lt => exact .inl rfl
  | eq => exact .inl rfl
  | gt => exact .inr rfl

theorem notAfter_trans (a b c : Model) (hab : notAfter a b = true) (hbc : notAfter b c = true) :
    notAfter a c = true :=
  Std.TransCmp.isLE_trans hbc hab

/-- Only models of one namespace may stand either way round. -/
theorem notAfter_both_iff (a b : Model) :
    (notAfter a b = true ∧ notAfter b a = true) ↔ a.path = b.path := by
  constructor
  · intro ⟨hab, hba⟩
    exact Std.LawfulEqCmp.eq_of_compare (Std.OrientedCmp.isLE_antisymm hba hab)
  · intro h
    have hself : compare b.path b.path = .eq := Std.ReflCmp.compare_self
    rw [notAfter, notAfter, h, hself]
    exact ⟨rfl, rfl⟩

end Order

/-! ### Rows -/

section Rows
variable {models : List Model} {path : List String}

theorem path_of_mem_modelsAt {m : Model} (h : m ∈ modelsAt models path) : m.path = path :=
  of_decide_eq_true (List.mem_filter.1 h).2

theorem modelsAt_ne_nil (h : path ∈ paths models) : modelsAt models path ≠ [] := by
  obtain ⟨m, hm, rfl⟩ := List.mem_map.1 (mem_paths.1 h)
  exact List.ne_nil_of_mem (List.mem_filter.2 ⟨hm, decide_eq_true rfl⟩)

/-- Of what stands at some namespaces, those of one namespace are found there or nowhere. -/
theorem filter_flatMap_modelsAt {ps : List (List String)} (hnodup : ps.Nodup) :
    (ps.flatMap (modelsAt models)).filter (·.path = path) =
      if path ∈ ps then modelsAt models path else [] := by
  induction ps with
  | nil => rfl
  | cons p rest ih =>
    obtain ⟨hp, hrest⟩ := List.nodup_cons.1 hnodup
    rw [List.flatMap_cons, List.filter_append, ih hrest, modelsAt, List.filter_filter]
    by_cases hpath : path = p
    · subst hpath
      simp [hp, modelsAt]
    · have hnone : ∀ m : Model, ¬ (m.path = path ∧ m.path = p) := fun m h =>
        hpath (h.1.symm.trans h.2)
      simp [hpath, hnone]

/-- Sorted, the models stand namespace by namespace. -/
theorem flatMap_modelsAt (models : List Model) :
    (paths models).flatMap (modelsAt models) = stableSort notAfter models := by
  apply eq_stableSort notAfter_total notAfter_trans notAfter_both_iff
  · rw [List.flatMap, List.pairwise_flatten]
    constructor
    · intro row hrow
      obtain ⟨path, _, rfl⟩ := List.mem_map.1 hrow
      refine List.pairwise_of_forall_mem_list fun a ha b hb => ?_
      exact ((notAfter_both_iff a b).2
        ((path_of_mem_modelsAt ha).trans (path_of_mem_modelsAt hb).symm)).1
    · refine List.pairwise_map.2 ((pairwise_paths models).imp fun hlt a ha b hb => ?_)
      rw [notAfter, path_of_mem_modelsAt ha, path_of_mem_modelsAt hb, hlt]
      rfl
  · intro path
    rw [filter_flatMap_modelsAt (nodup_paths models)]
    split
    · rfl
    · next h =>
      refine (List.filter_eq_nil_iff.2 fun m hm hpath => h ?_).symm
      exact of_decide_eq_true hpath ▸ mem_paths.2 (List.mem_map_of_mem hm)

/-- **A row of neighbours is a namespace**, with all of its models in the order in which they
came. -/
theorem neighbours_eq (models : List Model) :
    neighbours models = (paths models).map (modelsAt models) := by
  rw [neighbours, ← flatMap_modelsAt, List.flatMap]
  apply List.splitBy_flatten
  · intro hmem
    obtain ⟨path, hpath, hnil⟩ := List.mem_map.1 hmem
    exact modelsAt_ne_nil hpath hnil
  · intro row hrow
    obtain ⟨path, _, rfl⟩ := List.mem_map.1 hrow
    refine (List.pairwise_of_forall_mem_list fun a ha b hb => ?_).isChain
    exact decide_eq_true ((path_of_mem_modelsAt ha).trans (path_of_mem_modelsAt hb).symm)
  · refine ((List.pairwise_map.2 ?_).isChain)
    refine (nodup_paths models).imp_of_mem fun {p q} hp hq hne => ?_
    refine ⟨modelsAt_ne_nil hp, modelsAt_ne_nil hq, decide_eq_false fun h => hne ?_⟩
    rw [← path_of_mem_modelsAt (List.getLast_mem (modelsAt_ne_nil hp)), h,
      path_of_mem_modelsAt (List.head_mem (modelsAt_ne_nil hq))]

theorem place_modelsAt (hpath : path ∈ paths models) (slots : Partition) :
    slots.place (modelsAt models path) = add models slots path := by
  cases hrow : modelsAt models path with
  | nil => exact absurd hrow (modelsAt_ne_nil hpath)
  | cons m rest =>
    have hm : m.path = path := path_of_mem_modelsAt (hrow ▸ List.mem_cons_self)
    simp only [place, add, hm, hrow]

/-- **One walk over the sorted models makes the package.** -/
theorem ofModels_eq_foldl_place (models : List Model) :
    ofModels models = (neighbours models).foldl place [] := by
  rw [neighbours_eq, List.foldl_map, ofModels]
  refine List.foldl_ext _ _ _ fun slots path hpath => ?_
  exact (place_modelsAt hpath slots).symm

end Rows

end Bindery.Partition
