import Mathlib.Data.List.TakeWhile
import Bindery.Proofs.Layout.Slots
import Bindery.Proofs.Reference.Reaching
import Bindery.Proofs.Reference.Roots

/-! Imports from the topmost package.

A dotted text that is written as it stands begins at the top: its first part is a namespace of the
root, or a model there. An import brings this part from the topmost package only if what it is
computed for lies no deeper than that, and in no namespace that the unit lies below
(`sourceOf_eq_topSource_iff`). A unit that is a module has none below it, so the one way that would
seem to start at the top and does not, from a module to a namespace in it, does not occur
(`PlannedIn.kind_cases`). -/
namespace Bindery

namespace Dotted
variable {path : List String}

/-- Dots and a dotted name are nothing but dots only if the name is empty. -/
theorem Proper.replicate_append_join_eq_iff (h : Proper path) {m n : Nat} :
    Text.replicate m "." ++ Text.join "." path = Text.replicate n "." ↔ m = n ∧ path = [] := by
  have hreplicate : ∀ count, (Text.replicate count ".").toList = List.replicate count '.' :=
    fun count => Text.toList_replicate count '.'
  constructor
  · intro he
    have hchars := congrArg String.toList he
    rw [String.toList_append, hreplicate, hreplicate] at hchars
    have hempty : (Text.join "." path).toList = [] := by
      cases hjoin : (Text.join "." path).toList with
      | nil => rfl
      | cons c rest =>
        have hc : c ∈ List.replicate n '.' := by
          rw [← hchars, hjoin]
          exact List.mem_append_right _ List.mem_cons_self
        exact absurd (List.eq_of_mem_replicate hc) (h.join_head c (by rw [hjoin]; rfl))
    rw [hempty, List.append_nil] at hchars
    refine ⟨by simpa using congrArg List.length hchars, h.join_eq_empty.1 ?_⟩
    exact String.toList_eq_nil_iff.1 hempty
  · rintro ⟨rfl, rfl⟩
    simp [Text.join]

/-- The topmost package is reached by dots alone, one for each package and one more. -/
theorem follow?_eq_top_iff {package : List String} {source : String} :
    follow? package source = some [] ↔ source = Text.replicate (package.length + 1) "." := by
  constructor
  · intro h
    obtain ⟨dots, tail, rfl, hpos, hle, hplace⟩ := exists_of_follow? h
    obtain ⟨htop, rfl⟩ := List.append_eq_nil_iff.1 hplace.symm
    have hdots : dots = package.length + 1 := by
      cases List.take_eq_nil_iff.1 htop with
      | inl hup => omega
      | inr hempty =>
        rw [hempty, List.length_nil] at hle ⊢
        omega
    simp [hdots, Text.join]
  · rintro rfl
    have hfollow := follow?_replicate (Nat.succ_pos package.length) (Nat.le_refl _) proper_nil
    simpa [Text.join] using hfollow

theorem common_nil_right (here : List String) : common here [] = 0 := by
  cases here <;> rfl

end Dotted

namespace RelativeImport
open Dotted
variable {here there : List String} {leaf : String}

/-- The source of an import: up to what both have in common, and down to what holds the end. -/
theorem way_source_eq (leaf : String) (hthere : Proper there) :
    (way here there leaf).source = Text.replicate (max (here.length - common here there) 1) "." ++
      Text.join "." (there.drop (common here there)).dropLast := by
  obtain ⟨shared, up, down, rfl, rfl, hcommon⟩ := exists_common here there
  have hup : (shared ++ up).length - shared.length = up.length := by simp
  rw [hcommon, hup, List.drop_left]
  rcases List.eq_nil_or_concat' down with rfl | ⟨front, last, rfl⟩
  · rw [List.append_nil] at hcommon ⊢
    simp [way_up leaf hcommon, Text.join]
  · rw [way_down leaf hcommon hthere.append_right, List.dropLast_concat]

theorem way_source_eq_replicate_iff (leaf : String) (hthere : Proper there) {n : Nat} :
    (way here there leaf).source = Text.replicate n "." ↔
      max (here.length - common here there) 1 = n ∧ there.length ≤ common here there + 1 := by
  have hproper : Proper (there.drop (common here there)).dropLast := fun s hs =>
    hthere s (List.mem_of_mem_drop ((List.dropLast_sublist _).subset hs))
  rw [way_source_eq leaf hthere, hproper.replicate_append_join_eq_iff,
    ← List.length_eq_zero_iff, List.length_dropLast, List.length_drop]
  refine and_congr_right fun _ => ?_
  omega

/-- From a module the topmost package is the source for namespaces of the root that the module does
not lie below, and for the root itself. -/
theorem way_source_eq_top_iff (leaf : String) (hthere : Proper there)
    (hbelow : here <+: there → here.length ≠ 1) :
    (way here there leaf).source = Text.replicate (max here.length 1) "." ↔
      there.length ≤ 1 ∧ (there <+: here → there = []) := by
  rw [way_source_eq_replicate_iff leaf hthere]
  cases there with
  | nil => simp [common_nil_right]
  | cons y rest =>
    cases here with
    | nil => simp [common]
    | cons x up =>
      by_cases hxy : x = y
      -- The way would have to go up as far as it can and stop below the top.
      · subst hxy
        have hone : up = [] → False := by
          rintro rfl
          exact hbelow (List.prefix_append [x] rest) rfl
        have hlength : up.length ≠ 0 := fun h0 => hone (List.length_eq_zero_iff.1 h0)
        simp only [common, if_pos, List.length_cons, List.cons_prefix_cons, true_and]
        constructor
        · intro h
          omega
        · rintro ⟨hrest, hpre⟩
          have hnil : rest = [] := List.length_eq_zero_iff.1 (by omega)
          exact absurd (hpre (hnil ▸ List.nil_prefix)) (by simp)
      · simp [common, hxy, Ne.symm hxy]

theorem way_source_from_init_eq_top_iff (leaf : String) (hthere : Proper there) (hne : here ≠ []) :
    (way (here ++ [initSegment]) there leaf).source = Text.replicate (here.length + 1) "." ↔
      there.length ≤ 1 ∧ (there <+: here → there = []) := by
  have htop : here.length + 1 = max (here ++ [initSegment]).length 1 := by simp
  have hlong : 1 < (here ++ [initSegment]).length := by
    have hpos := List.length_pos_iff.2 hne
    rw [List.length_append, List.length_singleton]
    omega
  rw [htop, way_source_eq_top_iff leaf hthere fun _ => Nat.ne_of_gt hlong]
  refine and_congr_right fun hshort => ?_
  rw [List.prefix_concat_iff, or_iff_right]
  rintro rfl
  omega

/-- What is imported from the top is what a text begins with. -/
theorem way_name_of_top (leaf : String) (hthere : Proper there) (hlength : there.length ≤ 1)
    (habove : there <+: here → there = []) :
    some (way here there leaf).name = (there ++ [leaf]).head? := by
  match there with
  | [] => simp [way, common_nil_right, Text.join]
  | [y] =>
    have hcommon : common here [y] = 0 := by
      cases here with
      | nil => rfl
      | cons x up =>
        have hxy : x ≠ y := by
          rintro rfl
          exact absurd (habove (List.prefix_append [x] up)) (by simp)
        rw [common, if_neg hxy]
    obtain ⟨hne, hdot⟩ := hthere y (List.mem_singleton_self y)
    simp [way, hcommon, Text.join, hne, Text.splitLast?_of_not_mem hdot]

end RelativeImport

open Dotted RelativeImport

/-! ### Qualified names -/

theorem Model.qualifiedName_eq_join (m : Model) :
    m.qualifiedName = Text.join "." (m.path ++ [m.name]) := by
  by_cases hpath : m.path = []
  · simp [qualifiedName, hpath, Text.join]
  · rw [qualifiedName_of_path_ne_nil hpath, moduleName, Text.join_concat hpath]

theorem Model.split_qualifiedName {m : Model} (h : '.' ∉ m.name.toList) :
    split m.qualifiedName = (m.moduleName, m.name) := by
  by_cases hroot : m.path = []
  · have hmodule : m.moduleName = "" := by rw [moduleName, hroot, Text.join]
    rw [qualifiedName, if_pos hroot, split_of_not_mem h, hmodule]
  · rw [qualifiedName_of_path_ne_nil hroot, split_append h]

section Ways
variable {path : List String} {t : Model}

theorem relative?_of_proper (hpath : Proper path) (hhome : Proper t.path)
    (hname : '.' ∉ t.name.toList) :
    relative? (Text.join "." path) t.qualifiedName =
      if path = t.path then none else some (.way path t.path t.name) := by
  rw [relative?_eq, t.split_qualifiedName hname, hpath.segments_join, Model.moduleName,
    hhome.segments_join]

theorem relative?_qualifiedName (hpath : Proper path) (ht : Proper (t.path ++ [t.name])) :
    relative? (Text.join "." path) t.qualifiedName =
      if path = t.path then none else some (.way path t.path t.name) :=
  relative?_of_proper hpath (fun s hs => ht s (List.mem_append_left _ hs)) (ht t.name (by simp)).2

theorem relativeFromPackage?_qualifiedName (hpath : Proper path) (hhome : Proper t.path)
    (hname : '.' ∉ t.name.toList) (hne : path ≠ t.path) :
    relativeFromPackage? (Text.join "." path) t.qualifiedName =
      if path ++ [initSegment] = t.path then none
      else some (.way (path ++ [initSegment]) t.path t.name) := by
  have hinside : (if Text.join "." path = "" then initSegment
      else Text.join "." path ++ "." ++ initSegment) = Text.join "." (path ++ [initSegment]) := by
    split
    · next hempty => simp [hpath.join_eq_empty.1 hempty, Text.join]
    · next hsome =>
      exact (Text.join_concat fun hnil => hsome (hpath.join_eq_empty.2 hnil)).symm
  have hproper : Proper (path ++ [initSegment]) := by
    intro s hs
    rcases List.mem_append.1 hs with hs | hs
    · exact hpath s hs
    · rw [List.mem_singleton.1 hs]
      decide
  rw [relativeFromPackage?, relative?_of_proper hpath hhome hname, if_neg hne, hinside,
    relative?_of_proper hproper hhome hname]
  rfl

end Ways

/-! ### Units -/

section Units
variable {models : List Model} {plan : UnitPlan}

/-- A unit is the root, or a package with a name, or a module that no namespace with models lies
below. -/
theorem PlannedIn.kind_cases (h : PlannedIn models plan)
    (hd : (models.map Model.qualifiedName).Nodup) :
    (plan.kind = .rootInit ∧ plan.path = []) ∨ (plan.kind = .packageInit ∧ plan.path ≠ []) ∨
      (plan.kind = .leaf ∧ plan.path ≠ [] ∧
        ∀ m ∈ models, plan.path <+: m.path → plan.path = m.path) := by
  obtain ⟨budget, p, key, hsort, hfind⟩ := h
  have hperm : (Entries.values p.models).Perm models := by
    simpa [Entries.values, Function.comp_def] using (settled_of_sortModels hd hsort).2.map Prod.snd
  obtain ⟨path, hpath, _, rfl, _⟩ :=
    ((Partition.laid_ofModels (Entries.values p.models)).find?_eq_planned key plan).1 hfind
  by_cases hroot : path = []
  · subst hroot
    exact .inl ⟨rfl, rfl⟩
  · by_cases hbelow : ∃ q ∈ Partition.paths (Entries.values p.models), path ∈ Partition.ancestors q
    · refine .inr (.inl ⟨?_, hroot⟩)
      rw [Partition.unitAmong, Partition.placeAmong_of_below hroot hbelow]
    · refine .inr (.inr ⟨?_, hroot, fun m hm hpre => ?_⟩)
      · obtain ⟨parents, last, rfl⟩ := (List.eq_nil_or_concat' path).resolve_left hroot
        rw [Partition.unitAmong, Partition.placeAmong_of_none_below (by simpa using hbelow)]
      · by_contra hne
        exact hbelow ⟨m.path, Partition.mem_paths.2 (List.mem_map_of_mem (hperm.mem_iff.2 hm)),
          Partition.mem_ancestors_iff_isPrefix.2 ⟨hpre, hne⟩⟩

/-- What the topmost package is called in the imports of a unit. -/
def UnitPlan.topSource (plan : UnitPlan) : String :=
  Text.replicate (plan.package.length + 1) "."

/-- **What is imported from the top.** The import that a unit computes for a model of another
namespace comes from the topmost package exactly if the model lives in the root, or in a namespace
of the root that the unit does not lie below. -/
theorem sourceOf_eq_topSource_iff (index : ReferenceIndex) (source : Option String)
    (hd : (models.map Model.qualifiedName).Nodup) (hplan : PlannedIn models plan)
    (hpath : Proper plan.path) {t : Model} (ht : t ∈ models) (hproper : Proper (t.path ++ [t.name]))
    (hne : t.path ≠ plan.path) :
    Renaming.sourceOf (.ofPlan plan index source) t.qualifiedName
        (.way plan.path t.path t.name) = plan.topSource ↔
      t.path.length ≤ 1 ∧ (t.path <+: plan.path → t.path = []) := by
  have hhome : Proper t.path := fun s hs => hproper s (List.mem_append_left _ hs)
  rw [UnitPlan.topSource, UnitPlan.package]
  rcases hplan.kind_cases hd with ⟨hkind, hroot⟩ | ⟨hkind, hroot⟩ | ⟨hkind, hroot, hnone⟩
  · have hplain : (UnitScope.ofPlan plan index source).packageInit = false := by
      simp [UnitScope.ofPlan, hkind]
    rw [Renaming.sourceOf_of_not_packageInit hplain, hkind, if_neg (by decide), hroot]
    exact way_source_eq_top_iff t.name hhome (by simp)
  · have hinit : (UnitScope.ofPlan plan index source).packageInit = true := by
      simp [UnitScope.ofPlan, hkind]
    have hname : (UnitScope.ofPlan plan index source).moduleName = Text.join "." plan.path := rfl
    rw [Renaming.sourceOf, hinit, if_pos rfl, hkind, if_neg (by decide), hname,
      relativeFromPackage?_qualifiedName hpath hhome (hproper t.name (by simp)).2 hne.symm]
    split
    -- The namespace is that of the init module itself, two levels down at the least.
    · next hinside =>
      have hpos := List.length_pos_iff.2 hroot
      have hdeep : t.path.length = plan.path.length + 1 := by
        rw [← hinside, List.length_append, List.length_singleton]
      rw [Option.map_none, Option.getD_none, way_source_eq_replicate_iff _ hhome]
      omega
    · exact way_source_from_init_eq_top_iff t.name hhome hroot
  · have hplain : (UnitScope.ofPlan plan index source).packageInit = false := by
      simp [UnitScope.ofPlan, hkind]
    have htop : plan.path.dropLast.length + 1 = max plan.path.length 1 := by
      have hpos := List.length_pos_iff.2 hroot
      rw [List.length_dropLast]
      omega
    rw [Renaming.sourceOf_of_not_packageInit hplain, if_pos hkind, htop]
    exact way_source_eq_top_iff t.name hhome fun hpre => absurd (hnone t ht hpre).symm hne

end Units

end Bindery
