import Mathlib.Data.List.Nodup
import Bindery.Proofs.Model.Statements

/-! Imports in groups.

Imports in order are grouped by source. The groups come in order as well, none of them is empty, and
each has the imports of its source in order (`Grouped`, `grouped_groups`); groups of this kind are
those of the imports in them, whatever these are (`Grouped.groups_flatMap`). So to put an import to
the imports is to put it to the group of its source (`groups_insertIncreasing`), and to keep the
imports of some sources is to keep the groups of these (`groups_filter`). -/
namespace Bindery.Imports

/-! ### Groups of imports in order -/

section Groups
variable {imports : List Import}

theorem mem_iff_mem_groups {i : Import} : i ∈ imports ↔ ∃ g ∈ groups imports, i ∈ g.2 := by
  have hmem : i ∈ imports ↔ i ∈ (groups imports).flatMap Prod.snd := by rw [flatMap_groups]
  exact hmem.trans List.mem_flatMap

theorem mem_sources_groups {source : Option String} :
    source ∈ (groups imports).map Prod.fst ↔ ∃ i ∈ imports, i.source = source := by
  constructor
  · intro h
    obtain ⟨g, hg, rfl⟩ := List.mem_map.1 h
    obtain ⟨hne, hsource⟩ := of_mem_groups hg
    obtain ⟨i, hi⟩ := List.exists_mem_of_ne_nil _ hne
    exact ⟨i, mem_iff_mem_groups.2 ⟨g, hg, hi⟩, hsource i hi⟩
  · rintro ⟨i, hi, rfl⟩
    obtain ⟨g, hg, hi⟩ := mem_iff_mem_groups.1 hi
    exact List.mem_map.2 ⟨g, hg, ((of_mem_groups hg).2 i hi).symm⟩

/-- If imports come in the order of their sources, so do their groups, each source once. -/
theorem increasing_groups (h : imports.Pairwise fun i j => compare i.source j.source ≠ .gt) :
    Increasing ((groups imports).map Prod.fst) := by
  induction imports with
  | nil => exact .nil
  | cons i rest ih =>
    obtain ⟨hfirst, hrest⟩ := List.pairwise_cons.1 h
    have hgroups := ih hrest
    have hle : ∀ source ∈ (groups rest).map Prod.fst, compare i.source source ≠ .gt := by
      intro source hsource
      obtain ⟨j, hj, rfl⟩ := mem_sources_groups.1 hsource
      exact hfirst j hj
    rw [groups]
    split
    · next source members others heq =>
      rw [heq] at hgroups hle
      split
      · exact hgroups
      · next hne =>
        have hlt : compare i.source source = .lt := by
          cases hcompare : compare i.source source with
          | lt => rfl
          | eq => exact absurd (Std.LawfulEqOrd.eq_of_compare hcompare) hne
          | gt => exact absurd hcompare (hle source List.mem_cons_self)
        refine List.pairwise_cons.2 ⟨fun other hother => ?_, hgroups⟩
        rcases List.mem_cons.1 hother with rfl | hother
        · exact hlt
        · exact Std.TransCmp.lt_trans hlt ((List.pairwise_cons.1 hgroups).1 other hother)
    · exact List.pairwise_singleton _ _

end Groups

/-! ### Groups as such -/

/-- Groups of imports, each of another source, in order and none of them empty. -/
structure Grouped (gs : List (Option String × List Import)) : Prop where
  increasing : Increasing (gs.map Prod.fst)
  ne_nil : ∀ g ∈ gs, g.2 ≠ []
  own : ∀ g ∈ gs, ∀ i ∈ g.2, i.source = g.1
  ordered : ∀ g ∈ gs, Increasing g.2

section Grouped
variable {imports : List Import} {gs : List (Option String × List Import)}
  {i j : Import} {source : Option String}

/-- The source comes first in the order of imports. -/
theorem compare_of_source (h : compare i.source j.source = .lt) : compare i j = .lt := by
  simp [Import.compare_def, compareLex, compareOn, h]

theorem pairwise_source_of_increasing (h : Increasing imports) :
    imports.Pairwise fun i j => compare i.source j.source ≠ .gt := by
  refine h.imp fun {i j} h hgt => ?_
  have hlater : compare i j = .gt := by
    simp [Import.compare_def, compareLex, compareOn, hgt]
  rw [h] at hlater
  cases hlater

/-- **Imports in order are grouped.** -/
theorem grouped_groups (h : Increasing imports) : Grouped (groups imports) where
  increasing := increasing_groups (pairwise_source_of_increasing h)
  ne_nil _ hg := (of_mem_groups hg).1
  own _ hg := (of_mem_groups hg).2
  ordered g hg := by
    rw [← flatMap_groups imports, Increasing, List.pairwise_flatMap] at h
    exact h.1 g hg

theorem Grouped.increasing_flatMap (h : Grouped gs) : Increasing (gs.flatMap Prod.snd) := by
  refine List.pairwise_flatMap.2 ⟨h.ordered, ?_⟩
  refine (List.pairwise_map.1 h.increasing).imp_of_mem fun hg hg' hlt i hi j hj => ?_
  exact compare_of_source (by rwa [h.own _ hg i hi, h.own _ hg' j hj])

theorem Grouped.nodup_sources (h : Grouped gs) : (gs.map Prod.fst).Nodup :=
  SortedSet.nodup ⟨_, h.increasing⟩

theorem filter_of_mem_groups (h : Increasing imports) {g : Option String × List Import}
    (hg : g ∈ groups imports) : imports.filter (·.source = g.1) = g.2 := by
  have hgrouped := grouped_groups h
  refine SortedSet.eq_of_increasing (h.filter _) (hgrouped.ordered g hg) fun i => ?_
  rw [List.mem_filter, decide_eq_true_iff]
  constructor
  · rintro ⟨hi, hsource⟩
    obtain ⟨g', hg', hi⟩ := mem_iff_mem_groups.1 hi
    have hsame : g' = g := List.inj_on_of_nodup_map hgrouped.nodup_sources hg' hg
      ((hgrouped.own g' hg' i hi).symm.trans hsource)
    exact hsame ▸ hi
  · exact fun hi => ⟨mem_iff_mem_groups.2 ⟨g, hg, hi⟩, hgrouped.own g hg i hi⟩

/-- Imports of one source are a group, if the groups behind them are of other sources. -/
theorem groups_append {members : List Import} (hne : members ≠ [])
    (hown : ∀ i ∈ members, i.source = source)
    (hother : ∀ g ∈ (groups imports).head?, g.1 ≠ source) :
    groups (members ++ imports) = (source, members) :: groups imports := by
  induction members with
  | nil => exact absurd rfl hne
  | cons i members ih =>
    obtain ⟨rfl, hown⟩ := List.forall_mem_cons.1 hown
    rw [List.cons_append, groups]
    by_cases hlast : members = []
    · subst hlast
      rw [List.nil_append]
      cases hgroups : groups imports with
      | nil => rfl
      | cons g others =>
        have hne : i.source ≠ g.1 := fun he => hother g (by rw [hgroups]; rfl) he.symm
        simp [hne]
    · simp [ih hlast hown]

/-- **Groups are those of the imports in them.** -/
theorem Grouped.groups_flatMap (h : Grouped gs) : groups (gs.flatMap Prod.snd) = gs := by
  induction gs with
  | nil => rfl
  | cons g rest ih =>
    obtain ⟨hbelow, hincreasing⟩ := List.pairwise_cons.1 h.increasing
    obtain ⟨hne, hrest⟩ := List.forall_mem_cons.1 h.ne_nil
    obtain ⟨hown, hownrest⟩ := List.forall_mem_cons.1 h.own
    have hgroups := ih ⟨hincreasing, hrest, hownrest, (List.forall_mem_cons.1 h.ordered).2⟩
    rw [List.flatMap_cons, groups_append hne hown, hgroups]
    intro g' hg' hsame
    rw [hgroups] at hg'
    have hlt := hbelow g'.1 (List.mem_map_of_mem (List.mem_of_mem_head? hg'))
    rw [hsame] at hlt
    simp at hlt

/-! ### Putting an import to its group -/

/-- Groups with an import put to the group of its source, a new one if there is none. -/
def putInGroup (i : Import) :
    List (Option String × List Import) → List (Option String × List Import)
  | [] => [(i.source, [i])]
  | (source, members) :: others =>
    match compare i.source source with
    | .lt => (i.source, [i]) :: (source, members) :: others
    | .eq => (source, insertIncreasing i members) :: others
    | .gt => (source, members) :: putInGroup i others

/-- The source of an import is put to the sources. -/
theorem sources_putInGroup (i : Import) (gs : List (Option String × List Import)) :
    (putInGroup i gs).map Prod.fst = insertIncreasing i.source (gs.map Prod.fst) := by
  induction gs with
  | nil => rfl
  | cons g others ih =>
    rw [putInGroup, List.map_cons, insertIncreasing]
    cases compare i.source g.1 with
    | lt => rfl
    | eq => rfl
    | gt => exact congrArg (g.1 :: ·) ih

theorem mem_putInGroup : j ∈ (putInGroup i gs).flatMap Prod.snd ↔
    j = i ∨ j ∈ gs.flatMap Prod.snd := by
  induction gs with
  | nil => simp [putInGroup]
  | cons g others ih =>
    rw [putInGroup]
    cases compare i.source g.1 with
    | lt => simp
    | eq => simp [mem_insertIncreasing, or_assoc]
    | gt =>
      simp only [List.flatMap_cons, List.mem_append, ih]
      exact or_left_comm

/-- A group is new, or it was there, or the import has been put to it. -/
theorem cases_of_mem_putInGroup {g : Option String × List Import} (h : g ∈ putInGroup i gs) :
    g = (i.source, [i]) ∨ g ∈ gs ∨
      ∃ members, (i.source, members) ∈ gs ∧ g = (i.source, insertIncreasing i members) := by
  induction gs with
  | nil => exact .inl (List.mem_singleton.1 h)
  | cons g' others ih =>
    rw [putInGroup] at h
    cases hcompare : compare i.source g'.1 with
    | lt =>
      rw [hcompare] at h
      exact (List.mem_cons.1 h).imp_right .inl
    | eq =>
      rw [hcompare] at h
      rcases List.mem_cons.1 h with rfl | h
      · rw [Std.LawfulEqOrd.eq_of_compare hcompare]
        exact .inr (.inr ⟨g'.2, List.mem_cons_self, rfl⟩)
      · exact .inr (.inl (List.mem_cons_of_mem _ h))
    | gt =>
      rw [hcompare] at h
      rcases List.mem_cons.1 h with rfl | h
      · exact .inr (.inl List.mem_cons_self)
      · rcases ih h with rfl | h | ⟨members, hmembers, rfl⟩
        · exact .inl rfl
        · exact .inr (.inl (List.mem_cons_of_mem _ h))
        · exact .inr (.inr ⟨members, List.mem_cons_of_mem _ hmembers, rfl⟩)

theorem Grouped.put (h : Grouped gs) (i : Import) : Grouped (putInGroup i gs) where
  increasing := by
    rw [sources_putInGroup]
    exact increasing_insertIncreasing i.source h.increasing
  ne_nil := by
    intro g hg
    rcases cases_of_mem_putInGroup hg with rfl | hg | ⟨members, _, rfl⟩
    · exact List.cons_ne_nil i []
    · exact h.ne_nil g hg
    · exact List.ne_nil_of_mem (mem_insertIncreasing.2 (.inl rfl))
  own := by
    intro g hg j hj
    rcases cases_of_mem_putInGroup hg with rfl | hg | ⟨members, hmembers, rfl⟩
    · rw [List.mem_singleton.1 hj]
    · exact h.own g hg j hj
    · rcases mem_insertIncreasing.1 hj with rfl | hj
      · rfl
      · exact h.own _ hmembers j hj
  ordered := by
    intro g hg
    rcases cases_of_mem_putInGroup hg with rfl | hg | ⟨members, hmembers, rfl⟩
    · exact List.pairwise_singleton _ _
    · exact h.ordered g hg
    · exact increasing_insertIncreasing i (h.ordered _ hmembers)

/-- **To put an import to imports in order is to put it to its group.** -/
theorem groups_insertIncreasing (h : Increasing imports) (i : Import) :
    groups (insertIncreasing i imports) = putInGroup i (groups imports) := by
  have hput := (grouped_groups h).put i
  have hsame : insertIncreasing i imports = (putInGroup i (groups imports)).flatMap Prod.snd := by
    refine SortedSet.eq_of_increasing (increasing_insertIncreasing i h) hput.increasing_flatMap
      fun j => ?_
    rw [mem_insertIncreasing, mem_putInGroup, flatMap_groups]
  rw [hsame, hput.groups_flatMap]

/-! ### Keeping groups -/

theorem Grouped.filter (h : Grouped gs) (p : Option String × List Import → Bool) :
    Grouped (gs.filter p) where
  increasing := h.increasing.sublist (List.filter_sublist.map Prod.fst)
  ne_nil g hg := h.ne_nil g (List.mem_filter.1 hg).1
  own g hg := h.own g (List.mem_filter.1 hg).1
  ordered g hg := h.ordered g (List.mem_filter.1 hg).1

/-- **To keep the imports of some sources is to keep their groups.** -/
theorem groups_filter (h : Increasing imports) (p : Option String → Bool) :
    groups (imports.filter fun i => p i.source) = (groups imports).filter fun g => p g.1 := by
  have hgrouped := grouped_groups h
  have hsame : (imports.filter fun i => p i.source) =
      ((groups imports).filter fun g => p g.1).flatMap Prod.snd := by
    refine SortedSet.eq_of_increasing (h.filter _) (hgrouped.filter _).increasing_flatMap
      fun i => ?_
    rw [List.mem_filter, mem_iff_mem_groups, List.mem_flatMap]
    constructor
    · rintro ⟨⟨g, hg, hi⟩, hp⟩
      rw [hgrouped.own g hg i hi] at hp
      exact ⟨g, List.mem_filter.2 ⟨hg, hp⟩, hi⟩
    · rintro ⟨g, hkept, hi⟩
      obtain ⟨hg, hp⟩ := List.mem_filter.1 hkept
      rw [← hgrouped.own g hg i hi] at hp
      exact ⟨⟨g, hg, hi⟩, hp⟩
  rw [hsame, (hgrouped.filter _).groups_flatMap]

end Grouped

end Bindery.Imports
