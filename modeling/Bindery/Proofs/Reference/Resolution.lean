import Bindery.Proofs.Reference.Imports

/-! Whether a unit has imports for what its types are called.

A type that lives elsewhere is called by a local name, and the unit should import
something by that name. It does so for each type whose text is nothing else besides
(`Coincides`): for then the model's reference ends at this text (`endsAt_textOf`), and is
not taken for a name of the unit (`textOf_not_mem_ownNames`). A text that coincides may lose
its import, and whether the unit knows the name all the same is up to its other imports
(`types_bound_iff`). -/
namespace Bindery
open LocalNames

/-- The scope of a unit of which no reference path and no single source is known. -/
def UnitPlan.plainScope (plan : UnitPlan) : UnitScope := .ofPlan plan [] none

/-- The models of such a unit, resolved in some order. -/
def UnitPlan.resolveIn (plan : UnitPlan) (order : List Model) : UnitNames × List Model :=
  (UnitNames.ofPlan plan).resolveAll plan.plainScope order

/-- A type names a namespace that is not the unit's. -/
def UnitPlan.Elsewhere (plan : UnitPlan) (t : DataType) : Prop :=
  t.isModular ∧ t.home ≠ some plan.moduleName

instance (plan : UnitPlan) (t : DataType) : Decidable (plan.Elsewhere t) :=
  inferInstanceAs (Decidable (_ ∧ _))

variable {models order : List Model} {plan : UnitPlan}

/-! ### A resolved unit -/

theorem elsewhere_iff {t : DataType} (hn : t.isModular → '.' ∉ t.name.toList) :
    plan.Elsewhere t ↔ ∃ i, plan.plainScope.reach? t = some i := by
  constructor
  · rintro ⟨hmod, hhome⟩
    exact Option.isSome_iff_exists.1 ((reach?_isSome_iff plan.plainScope hmod (hn hmod)).2 hhome)
  · rintro ⟨i, hi⟩
    have hmod := (UnitScope.reach?_eq_some_iff.1 hi).1
    exact ⟨hmod, (reach?_isSome_iff plan.plainScope hmod (hn hmod)).1 (by rw [hi]; rfl)⟩

/-- What is known of a unit in the end: the local names are kept apart, every renaming is
what it should be, and types have their texts. -/
theorem resolveIn_spec (plan : UnitPlan) (order : List Model) :
    ∃ runs, runs.map Prod.fst = order ∧
      UnitNames.Resolves plan.plainScope (UnitNames.ofPlan plan) runs (plan.resolveIn order).1
        (plan.resolveIn order).2 ∧
      (plan.resolveIn order).1.localNames.Separate (plan.models.map Model.name) ∧
      (∀ run ∈ runs, run.2.Tracks plan.plainScope (plan.resolveIn order).1.localNames
        run.1.references run.1.allTypes) ∧
      List.Forall₂ (fun m m' => List.Forall₂ (fun t t' =>
        t'.name = plan.plainScope.textOf (plan.resolveIn order).1.localNames t ∧
          t'.home = t.home ∧ t'.container = t.container) m.allTypes m'.allTypes)
        order (plan.resolveIn order).2 := by
  obtain ⟨runs, hruns, h⟩ :=
    UnitNames.resolveAll_resolves plan.plainScope (UnitNames.ofPlan plan) order
  obtain ⟨htracks, htexts⟩ := h.tracks rfl (.refl _)
  exact ⟨runs, hruns, h, h.separate (separate_reserving _), htracks, hruns ▸ htexts⟩

theorem elsewhere_congr {t t' : DataType} (hhome : t'.home = t.home)
    (hcontainer : t'.container = t.container) : plan.Elsewhere t' ↔ plan.Elsewhere t := by
  rw [UnitPlan.Elsewhere, UnitPlan.Elsewhere, DataType.isModular, DataType.isModular, hhome,
    hcontainer]

/-- What holds of the names of the new types is what holds of the texts of the old. -/
theorem forall_resolved_iff (plan : UnitPlan) (order : List Model)
    (P : Option String → String → Prop) :
    (∀ m ∈ (plan.resolveIn order).2, ∀ t ∈ m.allTypes, plan.Elsewhere t → P t.home t.name) ↔
      ∀ m ∈ order, ∀ t ∈ m.allTypes, plan.Elsewhere t →
        P t.home (plan.plainScope.textOf (plan.resolveIn order).1.localNames t) := by
  obtain ⟨_, _, _, _, _, htexts⟩ := resolveIn_spec plan order
  constructor
  · intro h m hm t ht helse
    obtain ⟨m', hm', htypes⟩ := exists_of_mem_left htexts hm
    obtain ⟨t', ht', hname, hhome, hcontainer⟩ := exists_of_mem_left htypes ht
    rw [← hname, ← hhome]
    exact h m' hm' t' ht' ((elsewhere_congr hhome hcontainer).2 helse)
  · intro h m' hm' t' ht' helse
    obtain ⟨m, hm, htypes⟩ := exists_of_mem_right htexts hm'
    obtain ⟨t, ht, hname, hhome, hcontainer⟩ := exists_of_mem_right htypes ht'
    rw [hname, hhome]
    exact h m hm t ht ((elsewhere_congr hhome hcontainer).1 helse)

theorem forall_resolved_pair_iff (plan : UnitPlan) (order : List Model)
    (P : Option String → String → Option String → String → Prop) :
    (∀ m ∈ (plan.resolveIn order).2, ∀ t ∈ m.allTypes, plan.Elsewhere t →
        ∀ m' ∈ (plan.resolveIn order).2, ∀ t' ∈ m'.allTypes, plan.Elsewhere t' →
        P t.home t.name t'.home t'.name) ↔
      ∀ m ∈ order, ∀ t ∈ m.allTypes, plan.Elsewhere t →
        ∀ m' ∈ order, ∀ t' ∈ m'.allTypes, plan.Elsewhere t' →
        P t.home (plan.plainScope.textOf (plan.resolveIn order).1.localNames t)
          t'.home (plan.plainScope.textOf (plan.resolveIn order).1.localNames t') := by
  rw [forall_resolved_iff plan order fun home name => ∀ m' ∈ (plan.resolveIn order).2,
    ∀ t' ∈ m'.allTypes, plan.Elsewhere t' → P home name t'.home t'.name]
  constructor
  · intro h m hm t ht helse
    exact (forall_resolved_iff plan order (P t.home _)).1 (h m hm t ht helse)
  · intro h m hm t ht helse
    exact (forall_resolved_iff plan order (P t.home _)).2 (h m hm t ht helse)

/-- The local names that a unit's imports bind are those that its models bind. -/
theorem exists_import_iff (hdots : ∀ m ∈ order, ∀ t ∈ m.allTypes, t.isModular → '.' ∉ t.name.toList)
    (a : String) :
    (∃ i ∈ (plan.resolveIn order).1.imports, i.localName = a) ↔
      ∃ m ∈ order, plan.plainScope.Binds (plan.resolveIn order).1.localNames m a := by
  obtain ⟨runs, rfl, hresolves, hsep, htracks, _⟩ := resolveIn_spec plan order
  have hstart : ∀ i, i ∉ (UnitNames.ofPlan plan).imports := fun i => List.not_mem_nil
  constructor
  · rintro ⟨i, hi, rfl⟩
    obtain ⟨run, hrun, hi⟩ := ((hresolves.mem_imports i).1 hi).resolve_left (hstart i)
    refine ⟨run.1, List.mem_map_of_mem hrun, ?_⟩
    rcases hi with hi | ⟨x, hx, hi⟩
    · exact .given i hi rfl
    · exact UnitScope.binds_of_importFor? (htracks run hrun) hx hi
  · rintro ⟨m, hm, hbinds⟩
    obtain ⟨run, hrun, rfl⟩ := List.mem_map.1 hm
    have hmine :=
      UnitScope.exists_importFor?_of_binds (htracks run hrun) hsep (hdots run.1 hm) hbinds
    rcases hmine with ⟨i, hi, ha⟩ | ⟨x, hx, i, hi, ha⟩
    · exact ⟨i, (hresolves.mem_imports i).2 (.inr ⟨run, hrun, .inl hi⟩), ha⟩
    · exact ⟨i, (hresolves.mem_imports i).2 (.inr ⟨run, hrun, .inr ⟨x, hx, hi⟩⟩), ha⟩

theorem lookup_of_reach? {m : Model} (hm : m ∈ order) {t : DataType} (ht : t ∈ m.allTypes)
    {i : RelativeImport} (hi : plan.plainScope.reach? t = some i) :
    (plan.resolveIn order).1.localNames.assigned.lookup i.key =
      some ((plan.resolveIn order).1.localNames.nameAt i) := by
  obtain ⟨runs, rfl, _, _, htracks, _⟩ := resolveIn_spec plan order
  obtain ⟨run, hrun, rfl⟩ := List.mem_map.1 hm
  exact (htracks run hrun).assigned ht hi

/-! ### Texts that are something else besides -/

/-- The text of a type is also the qualified name of a model of the unit, or the full name
of a type of the same model that has another text. -/
def UnitPlan.Coincides (plan : UnitPlan) (names : LocalNames) (m : Model) (t : DataType) : Prop :=
  (∃ own ∈ plan.models, own.qualifiedName = plan.plainScope.textOf names t) ∨
    ∃ u ∈ m.allTypes, u.isModular ∧ u.fullName = plan.plainScope.textOf names t ∧
      plan.plainScope.textOf names u ≠ plan.plainScope.textOf names t

instance (plan : UnitPlan) (names : LocalNames) (m : Model) (t : DataType) :
    Decidable (plan.Coincides names m t) :=
  inferInstanceAs (Decidable (_ ∨ _))

theorem textOf_ne_name (hdots : DotFree models) (hsub : ∀ m ∈ plan.models, m ∈ models) {m : Model}
    (hm : m ∈ order) {t : DataType} (ht : t ∈ m.allTypes) {i : RelativeImport}
    (hi : plan.plainScope.reach? t = some i) {own : Model} (hown : own ∈ plan.models) :
    plan.plainScope.textOf (plan.resolveIn order).1.localNames t ≠ own.name := by
  obtain ⟨_, _, _, hsep, _⟩ := resolveIn_spec plan order
  intro he
  simp only [UnitScope.textOf, hi] at he
  split at he
  · exact hsep.not_reserved i.key _ (lookup_of_reach? hm ht hi) (he ▸ List.mem_map_of_mem hown)
  · exact hdots.name own (hsub own hown) (by simp [← he])

theorem textOf_not_mem_ownNames (hdots : DotFree models) (hsub : ∀ m ∈ plan.models, m ∈ models)
    {m : Model} (hm : m ∈ order) {t : DataType} (ht : t ∈ m.allTypes) {i : RelativeImport}
    (hi : plan.plainScope.reach? t = some i)
    (hnot : ¬ plan.Coincides (plan.resolveIn order).1.localNames m t) :
    plan.plainScope.textOf (plan.resolveIn order).1.localNames t ∉ plan.plainScope.ownNames := by
  intro hmem
  obtain ⟨own, hown, hname⟩ := List.mem_flatMap.1 hmem
  rcases List.mem_pair.1 hname with he | he
  · exact textOf_ne_name hdots hsub hm ht hi hown he
  · exact hnot (.inl ⟨own, hown, he.symm⟩)

theorem endsAt_textOf {m : Model} {names : LocalNames}
    (hdots : ∀ t ∈ m.allTypes, t.isModular → '.' ∉ t.name.toList) {t : DataType}
    (ht : t ∈ m.allTypes) (hmod : t.isModular) (hr : t.fullName ∈ m.references)
    (hnot : ¬ plan.Coincides names m t) :
    plan.plainScope.EndsAt names m (plan.plainScope.textOf names t) := by
  refine ⟨t.fullName, hr, UnitScope.carry_fullName ht (fun u hu he => ?_) fun u hu he => ?_⟩
  · by_cases hum : u.isModular
    · exact .inl (textOf_congr _ _ hmod hum (hdots t ht hmod) (hdots u hu hum) he)
    · exact .inr (by rw [UnitScope.textOf_of_not_isModular names (by simpa using hum), he])
  · by_cases hum : u.isModular
    · by_contra hne
      exact hnot (.inr ⟨u, hu, hum, he, hne⟩)
    · rw [UnitScope.textOf_of_not_isModular names (by simpa using hum), he]

/-- **A unit imports what its types are called by**, except for texts that are something
else besides. So every type that lives elsewhere begins with a name that the unit imports
if and only if those do whose texts coincide with other names, by way of some reference
whose import binds the same name. -/
theorem types_bound_iff (hd : (models.map Model.qualifiedName).Nodup) (hdots : DotFree models)
    (hplan : PlannedIn models plan) (horder : order.Perm plan.models)
    (hrefs : ∀ m ∈ plan.models, ∀ t ∈ m.allTypes, t.isModular → t.fullName ∈ m.references) :
    (∀ m ∈ (plan.resolveIn order).2, ∀ t ∈ m.allTypes, plan.Elsewhere t →
        ∃ i ∈ (plan.resolveIn order).1.imports, i.localName = Text.before "." t.name) ↔
      ∀ m ∈ plan.models, ∀ t ∈ m.allTypes, plan.Elsewhere t →
        plan.Coincides (plan.resolveIn order).1.localNames m t →
        ∃ m' ∈ plan.models, plan.plainScope.Binds (plan.resolveIn order).1.localNames m'
          (Text.before "." (plan.plainScope.textOf (plan.resolveIn order).1.localNames t)) := by
  have hsub : ∀ m ∈ plan.models, m ∈ models := fun m hm => ((hplan.mem_models hd).1 hm).1
  have hdot : ∀ m ∈ order, ∀ t ∈ m.allTypes, t.isModular → '.' ∉ t.name.toList :=
    fun m hm => hdots.type m (hsub m (horder.mem_iff.1 hm))
  rw [forall_resolved_iff plan order fun _ name =>
    ∃ i ∈ (plan.resolveIn order).1.imports, i.localName = Text.before "." name]
  simp only [exists_import_iff hdot, horder.mem_iff]
  refine ⟨fun h m hm t ht helse _ => h m hm t ht helse, fun h m hm t ht helse => ?_⟩
  by_cases hco : plan.Coincides (plan.resolveIn order).1.localNames m t
  · exact h m hm t ht helse hco
  -- The reference of the type itself is imported.
  have hmem : m ∈ order := horder.mem_iff.2 hm
  obtain ⟨i, hi⟩ := (elsewhere_iff (hdot m hmem t ht)).1 helse
  obtain ⟨_, _, _, hsep, _⟩ := resolveIn_spec plan order
  refine ⟨m, hm, .type t i ht hi ?_ ?_ ?_⟩
  · exact endsAt_textOf (hdot m hmem) ht helse.1 (hrefs m hm t ht helse.1) hco
  · exact textOf_not_mem_ownNames hdots hsub hmem ht hi hco
  · exact (UnitScope.before_textOf hsep (hdot m hmem t ht helse.1) hi).symm

/-- A model with a field for each of some models, which it refers to. -/
def Model.referring (path : List String) (name : String) (targets : List (String × String)) :
    Model where
  name := name
  path := path
  fields := targets.map fun t => { name := t.2, type := .model t.1 t.2 }
  references := .ofList (targets.map fun t => t.1 ++ "." ++ t.2)

theorem Model.allTypes_referring (path : List String) (name : String)
    (targets : List (String × String)) :
    (Model.referring path name targets).allTypes = targets.map fun t => .model t.1 t.2 := by
  rw [Model.allTypes, Model.types, Model.referring, List.map_map, List.append_nil]
  induction targets with
  | nil => rfl
  | cons t rest ih =>
    rw [List.map_cons, List.map_cons, DataType.preorders, ih]
    rfl

/-- Such a model refers to exactly what its types mean. -/
theorem Model.mem_references_referring {path : List String} {name : String}
    {targets : List (String × String)} (h : ∀ t ∈ targets, t.1 ≠ "") (r : String) :
    r ∈ (Model.referring path name targets).references ↔
      ∃ t ∈ (Model.referring path name targets).allTypes, t.isModular ∧ t.fullName = r := by
  have hmodel : ∀ t ∈ targets, (DataType.model t.1 t.2).isModular ∧
      (DataType.model t.1 t.2).fullName = t.1 ++ "." ++ t.2 := by
    intro t ht
    simp [DataType.model, DataType.isModular, DataType.fullName, h t ht]
  rw [Model.allTypes_referring, Model.referring, SortedSet.mem_ofList]
  simp only [List.mem_map, exists_exists_and_eq_and]
  constructor
  · rintro ⟨t, ht, rfl⟩
    exact ⟨t, ht, hmodel t ht⟩
  · rintro ⟨t, ht, _, hfull⟩
    exact ⟨t, ht, (hmodel t ht).2.symm.trans hfull⟩

/-- The name `d.X` is also that of a model of the unit `d`, so `X` of `x.d` is not imported by
its own text; but `Z` of `x.d` is, and has the local name `d` bound. -/
theorem types_bound_beside_own :
    let m := Model.referring ["d"] "M" [("x.d", "X"), ("x.d", "Z")]
    let own := Model.referring ["d"] "X" []
    let models := [m, own, .referring ["x", "d"] "X" [], .referring ["x", "d"] "Z" []]
    let plan : UnitPlan := ⟨["d.py"], ["d"], .leaf, [own, m]⟩
    (models.map Model.qualifiedName).Nodup ∧ DotFree models ∧ PlannedIn models plan ∧
      plan.Coincides (plan.resolveIn plan.models).1.localNames m (.model "x.d" "X") ∧
      ∀ m ∈ (plan.resolveIn plan.models).2, ∀ t ∈ m.allTypes, plan.Elsewhere t →
        ∃ i ∈ (plan.resolveIn plan.models).1.imports, i.localName = Text.before "." t.name := by
  intro m own models plan
  have hd : (models.map Model.qualifiedName).Nodup := by decide
  have hdots : DotFree models := ⟨by decide, by decide, by decide⟩
  have hplan : PlannedIn models plan := plannedIn_of_sorted 1
    [own, .referring ["x", "d"] "X" [], .referring ["x", "d"] "Z" [], m] plan.key rfl rfl
  refine ⟨hd, hdots, hplan, by decide +kernel, ?_⟩
  refine (types_bound_iff hd hdots hplan (.refl _) (by decide)).2 ?_
  -- The other type of the namespace has it imported.
  have hbinds : plan.plainScope.Binds (plan.resolveIn plan.models).1.localNames m "d" :=
    .type (.model "x.d" "Z") ⟨".x", "d", false⟩ (List.mem_cons_of_mem _ List.mem_cons_self)
      (by decide +kernel) ⟨"x.d.Z", by decide +kernel, by decide +kernel⟩ (by decide +kernel)
      (by decide +kernel)
  have hname : ∀ m ∈ plan.models, ∀ t ∈ m.allTypes, "d" = Text.before "."
      (plan.plainScope.textOf (plan.resolveIn plan.models).1.localNames t) := by
    decide +kernel
  intro m' hm' t ht _ _
  exact ⟨m, List.mem_cons_of_mem _ List.mem_cons_self, hname m' hm' t ht ▸ hbinds⟩

/-- Without `Z` nothing is imported, and the type that is called `d.X` has no `d`. -/
theorem types_not_bound_by_own :
    let m := Model.referring ["d"] "M" [("x.d", "X")]
    let own := Model.referring ["d"] "X" []
    let models := [m, own, .referring ["x", "d"] "X" []]
    let plan : UnitPlan := ⟨["d.py"], ["d"], .leaf, [own, m]⟩
    (models.map Model.qualifiedName).Nodup ∧ DotFree models ∧ PlannedIn models plan ∧
      (∀ m ∈ plan.models, ∀ t ∈ m.allTypes, t.isModular → t.fullName ∈ m.references) ∧
      ¬ ∀ m ∈ (plan.resolveIn plan.models).2, ∀ t ∈ m.allTypes, plan.Elsewhere t →
        ∃ i ∈ (plan.resolveIn plan.models).1.imports, i.localName = Text.before "." t.name := by
  intro m own models plan
  exact ⟨by decide, ⟨by decide, by decide, by decide⟩,
    plannedIn_of_sorted 1 [own, .referring ["x", "d"] "X" [], m] plan.key rfl rfl, by decide,
    by decide +kernel⟩

end Bindery
