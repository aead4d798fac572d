import Bindery.Proofs.Layout.Partition
import Bindery.Proofs.Order.Sorting
import Bindery.Proofs.Reference.Location
import Bindery.Proofs.Reference.Renaming

/-! The units of a graph of models.

A unit comes out of a graph by putting the models in order and parting them
(`PlannedIn`). It then holds exactly the models of its namespace, and every reference is
answered by some model. If no part of a name has a dot (`DotFree`), a full name can be
read in one way only, so a type that is among the references of its model means one model
of the graph (`exists_target`), and the unit reaches it from elsewhere unless its namespace
is the unit's own (`reach?_isSome_iff`). -/
namespace Bindery
open Placement

/-- The unit `plan` comes of the models, put in order within some budget and parted. -/
def PlannedIn (models : List Model) (plan : UnitPlan) : Prop :=
  ∃ budget p key, sortModels budget models = .ok p ∧
    (Partition.ofModels (Entries.values p.models)).find? key = some (.planned plan)

/-- If a sort is known to put models into some order, the units are those of this order. -/
theorem plannedIn_of_sorted {models : List Model} {plan : UnitPlan} (budget : Nat)
    (ordered : List Model) (key : UnitKey)
    (hsort : (sortModels budget models).map (fun p => Entries.values p.models) = .ok ordered)
    (hfind : (Partition.ofModels ordered).find? key = some (.planned plan)) :
    PlannedIn models plan := by
  cases hs : sortModels budget models with
  | error _ => simp [hs, Except.map] at hsort
  | ok p =>
    rw [hs, Except.map, Except.ok.injEq] at hsort
    exact ⟨budget, p, key, hs, hsort ▸ hfind⟩

/-- Names are put together with dots, and no part of one has a dot: not the name of a
model, not a segment of its namespace, not the name of a type that lives in one. -/
structure DotFree (models : List Model) : Prop where
  name : ∀ m ∈ models, '.' ∉ m.name.toList
  path : ∀ m ∈ models, ∀ s ∈ m.path, '.' ∉ s.toList
  type : ∀ m ∈ models, ∀ t ∈ m.allTypes, t.isModular → '.' ∉ t.name.toList

variable {models : List Model} {plan : UnitPlan}

/-! ### Models of a unit -/

theorem PlannedIn.mem_models (h : PlannedIn models plan)
    (hd : (models.map Model.qualifiedName).Nodup) {m : Model} :
    m ∈ plan.models ↔ m ∈ models ∧ m.path = plan.path := by
  obtain ⟨budget, p, key, hsort, hfind⟩ := h
  have hperm : (Entries.values p.models).Perm models := by
    simpa [Entries.values, Function.comp_def] using
      (settled_of_sortModels hd hsort).2.map Prod.snd
  rw [Partition.models_of_find? hfind, Partition.modelsAt, List.mem_filter, hperm.mem_iff,
    decide_eq_true_eq]

theorem PlannedIn.defined (h : PlannedIn models plan) {m : Model} (hm : m ∈ models) {r : String}
    (hr : r ∈ m.references) : ∃ target ∈ models, target.qualifiedName = r := by
  obtain ⟨budget, p, key, hsort, _⟩ := h
  by_contra hnone
  have hdangles : Dangles models m := ⟨r, hr, fun hmem => hnone (List.mem_map.1 hmem)⟩
  have hfilter := List.filter_eq_nil_iff.1 (not_dangles_of_sortModels hsort) m hm
  exact hfilter (decide_eq_true hdangles)

/-! ### Qualified names -/

theorem qualifiedName_of_path_ne_nil {m : Model} (h : m.path ≠ []) :
    m.qualifiedName = m.moduleName ++ "." ++ m.name := by
  rw [Model.qualifiedName, if_neg h]

/-- A qualified name with a dot in it is read in one way. -/
theorem qualifiedName_eq_iff {m : Model} {home name : String} (hm : '.' ∉ m.name.toList)
    (hn : '.' ∉ name.toList) :
    m.qualifiedName = home ++ "." ++ name ↔ m.path ≠ [] ∧ m.moduleName = home ∧ m.name = name := by
  constructor
  · intro he
    have hpath : m.path ≠ [] := by
      intro hp
      rw [Model.qualifiedName, if_pos hp] at he
      exact hm (by simp [he])
    rw [qualifiedName_of_path_ne_nil hpath] at he
    have hs := congrArg Dotted.split he
    rw [Dotted.split_append hm, Dotted.split_append hn] at hs
    exact ⟨hpath, (Prod.mk.inj hs).1, (Prod.mk.inj hs).2⟩
  · rintro ⟨hpath, rfl, rfl⟩
    exact qualifiedName_of_path_ne_nil hpath

/-- Two namespaces below the root with one name are one. -/
theorem path_inj {path path' : List String} (hne : path ≠ []) (hne' : path' ≠ [])
    (h : ∀ s ∈ path, '.' ∉ s.toList) (h' : ∀ s ∈ path', '.' ∉ s.toList)
    (he : Text.join "." path = Text.join "." path') : path = path' := by
  rw [← Dotted.pieces_join hne h, he, Dotted.pieces_join hne' h']

/-! ### What a type means -/

theorem exists_home {t : DataType} (h : t.isModular) : ∃ home, t.home = some home ∧ home ≠ "" ∧
    t.fullName = home ++ "." ++ t.name := by
  cases hh : t.home with
  | none => simp [DataType.isModular, hh] at h
  | some home =>
    refine ⟨home, rfl, ?_, by simp [DataType.fullName, hh, h]⟩
    simp only [DataType.isModular, hh, Option.any_some, Bool.and_eq_true, decide_eq_true_eq] at h
    exact h.2

theorem textOf_congr (scope : UnitScope) (names : LocalNames) {t u : DataType}
    (ht : t.isModular) (hu : u.isModular) (hnt : '.' ∉ t.name.toList) (hnu : '.' ∉ u.name.toList)
    (he : u.fullName = t.fullName) : scope.textOf names u = scope.textOf names t := by
  obtain ⟨home, _, _, hfull⟩ := exists_home ht
  obtain ⟨home', _, _, hfull'⟩ := exists_home hu
  have hsplit := congrArg Dotted.split he
  rw [hfull, hfull', Dotted.split_append hnt, Dotted.split_append hnu] at hsplit
  have hname : u.name = t.name := (Prod.mk.inj hsplit).2
  simp only [UnitScope.textOf, UnitScope.reach?, ht, hu, he, hname]

/-- How a unit reaches a type is decided by the two namespaces and the type's name. -/
theorem reach?_eq (scope : UnitScope) {t : DataType} {home : String} (h : t.isModular)
    (hh : t.home = some home) (hn : '.' ∉ t.name.toList) :
    scope.reach? t =
      if scope.moduleName = home then none
      else some (.way (Dotted.segments scope.moduleName) (Dotted.segments home) t.name) := by
  obtain ⟨home', hh', _, hfull⟩ := exists_home h
  obtain rfl : home' = home := Option.some.inj (hh'.symm.trans hh)
  rw [UnitScope.reach?, if_pos h, hfull, relative?_append hn]

theorem reach?_isSome_iff (scope : UnitScope) {t : DataType} (h : t.isModular)
    (hn : '.' ∉ t.name.toList) : (scope.reach? t).isSome ↔ t.home ≠ some scope.moduleName := by
  obtain ⟨home, hh, _⟩ := exists_home h
  rw [reach?_eq scope h hh hn, hh]
  by_cases he : scope.moduleName = home
  · simp [he]
  · simp [he, Ne.symm he]

theorem dot_not_mem_nameAt {scope : UnitScope} {names : LocalNames} {reserved : List String}
    (hs : names.Separate reserved) {t : DataType} {i : RelativeImport} (hn : '.' ∉ t.name.toList)
    (hi : scope.reach? t = some i) : '.' ∉ (names.nameAt i).toList := by
  have hmod := (UnitScope.reach?_eq_some_iff.1 hi).1
  obtain ⟨home, hh, _⟩ := exists_home hmod
  rw [reach?_eq scope hmod hh hn] at hi
  split at hi
  · cases hi
  · cases hi
    exact hs.dot_not_mem (RelativeImport.dot_not_mem_way_name hn)

/-- A type that is among the references of its model means a model of the graph. -/
theorem PlannedIn.exists_target (h : PlannedIn models plan) (hdots : DotFree models) {m : Model}
    (hm : m ∈ models) {t : DataType} (ht : t ∈ m.allTypes) (hmod : t.isModular)
    (hr : t.fullName ∈ m.references) :
    ∃ target ∈ models, target.path ≠ [] ∧ t.home = some target.moduleName ∧
      target.name = t.name := by
  obtain ⟨home, hh, _, hfull⟩ := exists_home hmod
  obtain ⟨target, htarget, hname⟩ := h.defined hm hr
  rw [hfull] at hname
  obtain ⟨hpath, rfl, hn⟩ :=
    (qualifiedName_eq_iff (hdots.name target htarget) (hdots.type m hm t ht hmod)).1 hname
  exact ⟨target, htarget, hpath, hh, hn⟩

/-- A type of the unit's own namespace has the name of a model of the unit. -/
theorem PlannedIn.exists_own (h : PlannedIn models plan)
    (hd : (models.map Model.qualifiedName).Nodup) (hdots : DotFree models) {m : Model}
    (hm : m ∈ plan.models) {t : DataType} (ht : t ∈ m.allTypes) (hmod : t.isModular)
    (hr : t.fullName ∈ m.references) (hhome : t.home = some plan.moduleName) :
    ∃ target ∈ plan.models, target.name = t.name := by
  obtain ⟨hmem, hpath⟩ := (h.mem_models hd).1 hm
  obtain ⟨target, htarget, hne, hhome', hname⟩ := h.exists_target hdots hmem ht hmod hr
  obtain ⟨home, hh, hempty, _⟩ := exists_home hmod
  have hplan : plan.path ≠ [] := by
    intro hp
    rw [hh] at hhome
    exact hempty (by simpa [UnitPlan.moduleName, hp, Text.join] using hhome)
  have hjoin : Text.join "." target.path = Text.join "." plan.path :=
    Option.some.inj (hhome'.symm.trans hhome)
  have hsame : target.path = plan.path :=
    path_inj hne hplan (hdots.path target htarget) (hpath ▸ hdots.path m hmem) hjoin
  exact ⟨target, (h.mem_models hd).2 ⟨htarget, hsame⟩, hname⟩

end Bindery
