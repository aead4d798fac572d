import Bindery.Proofs.Reference.Resolution

/-! Whether what a unit imports is kept apart.

Local names go with the locations that a plain module would import from: two types have
one local name if and only if a module would import them from one place
(`nameAt_eq_iff`). The init module of a package counts its dots otherwise, so for it such a
place may be two: a namespace below the package and one beside it, with the same name.
What a unit imports is kept apart if and only if no two of its types are such
(`locals_apart_iff`). -/
namespace Bindery
open LocalNames
variable {models order : List Model} {plan : UnitPlan}

/-! ### Locations and their names -/

/-- Two locations that have names have one name only if they are one. -/
theorem nameAt_eq_iff {reserved : List String} {names : LocalNames} (hs : names.Separate reserved)
    {i j : RelativeImport} (hi : names.assigned.lookup i.key = some (names.nameAt i))
    (hj : names.assigned.lookup j.key = some (names.nameAt j)) :
    names.nameAt i = names.nameAt j ↔ i.key = j.key := by
  constructor
  · intro he
    exact hs.injective i.key j.key _ hi (he ▸ hj)
  · intro he
    rw [he, hj] at hi
    exact (Option.some.inj hi).symm

/-- Types that live elsewhere begin with one local name if and only if a plain module has
one place to import them from. -/
theorem before_textOf_eq_iff
    (hdots : ∀ m ∈ order, ∀ t ∈ m.allTypes, t.isModular → '.' ∉ t.name.toList)
    {m m' : Model} (hm : m ∈ order) (hm' : m' ∈ order) {t t' : DataType} (ht : t ∈ m.allTypes)
    (ht' : t' ∈ m'.allTypes) (helse : plan.Elsewhere t) (helse' : plan.Elsewhere t') :
    Text.before "." (plan.plainScope.textOf (plan.resolveIn order).1.localNames t) =
        Text.before "." (plan.plainScope.textOf (plan.resolveIn order).1.localNames t') ↔
      (relative? plan.moduleName t.fullName).map RelativeImport.key =
        (relative? plan.moduleName t'.fullName).map RelativeImport.key := by
  have hdot := hdots m hm t ht
  have hdot' := hdots m' hm' t' ht'
  obtain ⟨_, _, _, hsep, _⟩ := resolveIn_spec plan order
  obtain ⟨i, hi⟩ := (elsewhere_iff hdot).1 helse
  obtain ⟨j, hj⟩ := (elsewhere_iff hdot').1 helse'
  have hrel : relative? plan.moduleName t.fullName = some i := (UnitScope.reach?_eq_some_iff.1 hi).2
  have hrel' : relative? plan.moduleName t'.fullName = some j :=
    (UnitScope.reach?_eq_some_iff.1 hj).2
  rw [UnitScope.before_textOf hsep (hdot helse.1) hi,
    UnitScope.before_textOf hsep (hdot' helse'.1) hj, hrel, hrel',
    nameAt_eq_iff hsep (lookup_of_reach? hm ht hi) (lookup_of_reach? hm' ht' hj)]
  simp

/-- Types of one namespace that are imported from one place are imported by one text. -/
theorem sourceOf_congr (scope : UnitScope) {t u : DataType} (ht : t.isModular) (hu : u.isModular)
    (hnt : '.' ∉ t.name.toList) (hnu : '.' ∉ u.name.toList) (hhome : t.home = u.home)
    {i j : RelativeImport} (hkey : i.key = j.key) :
    Renaming.sourceOf scope t.fullName i = Renaming.sourceOf scope u.fullName j := by
  obtain ⟨home, hh, _, hfull⟩ := exists_home ht
  obtain ⟨home', hh', _, hfull'⟩ := exists_home hu
  obtain rfl : home = home' := Option.some.inj (hh.symm.trans (hhome.trans hh'))
  have hsource : i.source = j.source := congrArg Prod.fst hkey
  rw [Renaming.sourceOf, Renaming.sourceOf, hfull, hfull',
    relativeFromPackage?_source scope.moduleName home hnt hnu, hsource]

/-! ### Where imports come from -/

/-- The text of a type that does not live elsewhere is the name of a model of the unit. -/
theorem textOf_mem_ownNames (hd : (models.map Model.qualifiedName).Nodup) (hdots : DotFree models)
    (hplan : PlannedIn models plan) (names : LocalNames) {m : Model} (hm : m ∈ plan.models)
    {t : DataType} (ht : t ∈ m.allTypes) (hmod : t.isModular) (hr : t.fullName ∈ m.references)
    (hhere : ¬ plan.Elsewhere t) :
    plan.plainScope.textOf names t ∈ plan.plainScope.ownNames := by
  have hdot := hdots.type m ((hplan.mem_models hd).1 hm).1 t ht
  have hreach : plan.plainScope.reach? t = none := by
    rwa [← Option.not_isSome_iff_eq_none, Option.isSome_iff_exists, ← elsewhere_iff hdot]
  have hhome : t.home = some plan.moduleName := by
    by_contra hne
    exact hhere ⟨hmod, hne⟩
  obtain ⟨own, hown, hname⟩ := hplan.exists_own hd hdots hm ht hmod hr hhome
  refine List.mem_flatMap.2 ⟨own, hown, ?_⟩
  rw [UnitScope.textOf_of_reach?_eq_none names hreach, hname]
  exact List.mem_cons_self

/-- If models refer to exactly what their types mean and bring no imports, then each import
of a unit is that of a type that lives elsewhere. -/
theorem exists_type_of_import (hd : (models.map Model.qualifiedName).Nodup)
    (hdots : DotFree models) (hplan : PlannedIn models plan) (horder : order.Perm plan.models)
    (hnone : ∀ m ∈ plan.models, m.imports = [])
    (hrefs : ∀ m ∈ plan.models, ∀ r, r ∈ m.references ↔
      ∃ t ∈ m.allTypes, t.isModular ∧ t.fullName = r) {i : Import}
    (hi : i ∈ (plan.resolveIn order).1.imports) :
    ∃ m ∈ plan.models, ∃ t ∈ m.allTypes, plan.Elsewhere t ∧
      i.localName = Text.before "."
        (plan.plainScope.textOf (plan.resolveIn order).1.localNames t) ∧
      ∃ j, relative? plan.moduleName t.fullName = some j ∧
        i.source = some (Renaming.sourceOf plan.plainScope t.fullName j) ∧ i.name = j.name := by
  obtain ⟨runs, rfl, hresolves, hsep, htracks, _⟩ := resolveIn_spec plan order
  have hstart : i ∉ (UnitNames.ofPlan plan).imports := List.not_mem_nil
  obtain ⟨run, hrun, hi⟩ := ((hresolves.mem_imports i).1 hi).resolve_left hstart
  obtain ⟨m, r⟩ := run
  have hm : m ∈ plan.models := horder.mem_iff.1 (List.mem_map_of_mem hrun)
  have hdot := hdots.type m ((hplan.mem_models hd).1 hm).1
  have htrack := htracks _ hrun
  obtain ⟨x, hx, hi⟩ := hi.resolve_left (by simp [hnone m hm])
  obtain ⟨hown, ⟨target, j, htarget, rfl⟩ | ⟨htarget, _⟩⟩ := Renaming.importFor?_eq_some_iff.1 hi
  · obtain ⟨t, ht, rfl, hj, rfl⟩ := htrack.target x target j htarget
    obtain ⟨hmod, hrel⟩ := UnitScope.reach?_eq_some_iff.1 hj
    refine ⟨m, hm, t, ht, (elsewhere_iff (hdot t ht)).2 ⟨j, hj⟩, ?_, j, hrel, rfl, rfl⟩
    rw [htrack.localName_importOf ⟨t, ht, j, hj, rfl⟩,
      UnitScope.before_textOf hsep (hdot t ht hmod) hj]
  -- The reference ends at the text of some type of the model. If the type lives elsewhere,
  -- it is known what the text means; if not, the text is a name of the unit.
  · exfalso
    obtain ⟨full, hfull, rfl⟩ := (htrack.references x).1 hx
    obtain ⟨t, ht, hmod, rfl⟩ := (hrefs m hm full).1 hfull
    obtain ⟨u, hu, humod, htext⟩ := UnitScope.exists_carry_fullName plan.plainScope _ ht hmod
    rw [htext] at hown htarget
    by_cases helse : plan.Elsewhere u
    · obtain ⟨k, hk⟩ := (elsewhere_iff (hdot u hu)).1 helse
      exact (UnitScope.lookup_targets_eq_none_iff htrack _).1 htarget u hu (by rw [hk]; rfl) rfl
    · have href := (hrefs m hm u.fullName).2 ⟨u, hu, humod, rfl⟩
      exact hown (textOf_mem_ownNames hd hdots hplan _ hm hu humod href helse)

/-! ### Units -/

/-- **Imports are kept apart when modules would keep them apart.** In a unit whose models
refer to exactly what their types mean and bring no imports, no local name is bound to two
locations and no two types of different other namespaces begin with one local name, if and
only if a plain module would not import two such types from one place. -/
theorem locals_apart_iff (hd : (models.map Model.qualifiedName).Nodup) (hdots : DotFree models)
    (hplan : PlannedIn models plan) (horder : order.Perm plan.models)
    (hnone : ∀ m ∈ plan.models, m.imports = [])
    (hrefs : ∀ m ∈ plan.models, ∀ r, r ∈ m.references ↔
      ∃ t ∈ m.allTypes, t.isModular ∧ t.fullName = r) :
    ((∀ i ∈ (plan.resolveIn order).1.imports, ∀ j ∈ (plan.resolveIn order).1.imports,
        i.localName = j.localName → i.source = j.source ∧ i.name = j.name) ∧
      ∀ m ∈ (plan.resolveIn order).2, ∀ t ∈ m.allTypes, plan.Elsewhere t →
        ∀ m' ∈ (plan.resolveIn order).2, ∀ t' ∈ m'.allTypes, plan.Elsewhere t' →
        t.home ≠ t'.home → Text.before "." t.name ≠ Text.before "." t'.name) ↔
      ∀ m ∈ plan.models, ∀ t ∈ m.allTypes, plan.Elsewhere t →
        ∀ m' ∈ plan.models, ∀ t' ∈ m'.allTypes, plan.Elsewhere t' → t.home ≠ t'.home →
        (relative? plan.moduleName t.fullName).map RelativeImport.key ≠
          (relative? plan.moduleName t'.fullName).map RelativeImport.key := by
  have hdot : ∀ m ∈ order, ∀ t ∈ m.allTypes, t.isModular → '.' ∉ t.name.toList :=
    fun m hm => hdots.type m ((hplan.mem_models hd).1 (horder.mem_iff.1 hm)).1
  rw [forall_resolved_pair_iff plan order fun home name home' name' =>
    home ≠ home' → Text.before "." name ≠ Text.before "." name']
  constructor
  · rintro ⟨_, h⟩ m hm t ht helse m' hm' t' ht' helse' hne he
    have hmem := horder.mem_iff.2 hm
    have hmem' := horder.mem_iff.2 hm'
    refine h m hmem t ht helse m' hmem' t' ht' helse' hne ?_
    exact (before_textOf_eq_iff hdot hmem hmem' ht ht' helse helse').2 he
  · intro h
    constructor
    · -- Both imports are of types, and a module would import these from one place.
      intro i hi j hj hname
      obtain ⟨m, hm, t, ht, helse, hlocal, k, hk, hsource, hkname⟩ :=
        exists_type_of_import hd hdots hplan horder hnone hrefs hi
      obtain ⟨m', hm', t', ht', helse', hlocal', k', hk', hsource', hkname'⟩ :=
        exists_type_of_import hd hdots hplan horder hnone hrefs hj
      have hmem := horder.mem_iff.2 hm
      have hmem' := horder.mem_iff.2 hm'
      have hplace := (before_textOf_eq_iff hdot hmem hmem' ht ht' helse helse').1
        (hlocal.symm.trans (hname.trans hlocal'))
      have hsame : t.home = t'.home := by
        by_contra hne
        exact h m hm t ht helse m' hm' t' ht' helse' hne hplace
      rw [hk, hk', Option.map_some, Option.map_some, Option.some.injEq] at hplace
      have hsources := sourceOf_congr plan.plainScope helse.1 helse'.1
        (hdot m hmem t ht helse.1) (hdot m' hmem' t' ht' helse'.1) hsame hplace
      rw [hsource, hsource', hkname, hkname', hsources]
      exact ⟨rfl, congrArg Prod.snd hplace⟩
    · intro m hm t ht helse m' hm' t' ht' helse' hne he
      refine h m (horder.mem_iff.1 hm) t ht helse m' (horder.mem_iff.1 hm') t' ht' helse' hne ?_
      exact (before_textOf_eq_iff hdot hm hm' ht ht' helse helse').1 he

/-- A model of the package `a.b` that refers to `X` of the namespace `a.b.d` below it and to
`Y` of some namespace. -/
def packageModel (there : List String) : Model :=
  .referring ["a", "b"] "M" [("a.b.d", "X"), (Text.join "." there, "Y")]

/-- The model with those that it refers to. -/
def packageGraph (there : List String) : List Model :=
  [packageModel there, .referring ["a", "b", "d"] "X" [], .referring there "Y" []]

/-- The unit of the package. -/
def packageUnit (there : List String) : UnitPlan :=
  ⟨["a", "b", "__init__.py"], ["a", "b"], .packageInit, [packageModel there]⟩

/-- A module would not take `d` below `a.b` and `d` of `x` for one, and the package imports the
second under another name. -/
theorem locals_apart_below_and_far :
    ((packageGraph ["x", "d"]).map Model.qualifiedName).Nodup ∧ DotFree (packageGraph ["x", "d"]) ∧
      PlannedIn (packageGraph ["x", "d"]) (packageUnit ["x", "d"]) ∧
      (∀ m ∈ (packageUnit ["x", "d"]).models, ∀ r, r ∈ m.references ↔
        ∃ t ∈ m.allTypes, t.isModular ∧ t.fullName = r) ∧
      let done := (packageUnit ["x", "d"]).resolveIn (packageUnit ["x", "d"]).models
      done.1.imports.toList.map Import.text = ["from . import d", "from ...x import d as d2"] ∧
        ∀ i ∈ done.1.imports, ∀ j ∈ done.1.imports,
          i.localName = j.localName → i.source = j.source ∧ i.name = j.name := by
  have hd : ((packageGraph ["x", "d"]).map Model.qualifiedName).Nodup := by decide
  have hdots : DotFree (packageGraph ["x", "d"]) := ⟨by decide, by decide, by decide⟩
  have hplan : PlannedIn (packageGraph ["x", "d"]) (packageUnit ["x", "d"]) :=
    plannedIn_of_sorted 1 [.referring ["a", "b", "d"] "X" [], .referring ["x", "d"] "Y" [],
      packageModel ["x", "d"]] ["a", "b", "__init__.py"] rfl rfl
  have hrefs : ∀ m ∈ (packageUnit ["x", "d"]).models, ∀ r, r ∈ m.references ↔
      ∃ t ∈ m.allTypes, t.isModular ∧ t.fullName = r := by
    intro m hm
    obtain rfl := List.mem_singleton.1 hm
    exact Model.mem_references_referring (by decide)
  have hplaces : ∀ t ∈ (packageUnit ["x", "d"]).models.flatMap Model.allTypes,
      ∀ t' ∈ (packageUnit ["x", "d"]).models.flatMap Model.allTypes, t.home ≠ t'.home →
      (relative? (packageUnit ["x", "d"]).moduleName t.fullName).map RelativeImport.key ≠
        (relative? (packageUnit ["x", "d"]).moduleName t'.fullName).map RelativeImport.key := by
    decide +kernel
  refine ⟨hd, hdots, hplan, hrefs, by decide +kernel, ?_⟩
  refine ((locals_apart_iff hd hdots hplan (.refl _) (by decide) hrefs).2 ?_).1
  intro m hm t ht _ m' hm' t' ht' _
  exact hplaces t (List.mem_flatMap_of_mem hm ht) t' (List.mem_flatMap_of_mem hm' ht')

/-- To a module `d` below `a.b` and `d` beside it are in one place, so the package imports
both under one name, from two places. -/
theorem locals_not_apart_below_and_beside :
    ((packageGraph ["a", "d"]).map Model.qualifiedName).Nodup ∧ DotFree (packageGraph ["a", "d"]) ∧
      PlannedIn (packageGraph ["a", "d"]) (packageUnit ["a", "d"]) ∧
      (∀ m ∈ (packageUnit ["a", "d"]).models, ∀ r, r ∈ m.references ↔
        ∃ t ∈ m.allTypes, t.isModular ∧ t.fullName = r) ∧
      let done := (packageUnit ["a", "d"]).resolveIn (packageUnit ["a", "d"]).models
      done.1.imports.toList.map Import.text = ["from . import d", "from .. import d"] ∧
        ¬ ∀ i ∈ done.1.imports.toList, ∀ j ∈ done.1.imports.toList,
          i.localName = j.localName → i.source = j.source ∧ i.name = j.name := by
  refine ⟨by decide, ⟨by decide, by decide, by decide⟩,
    plannedIn_of_sorted 1 [.referring ["a", "b", "d"] "X" [], .referring ["a", "d"] "Y" [],
      packageModel ["a", "d"]] ["a", "b", "__init__.py"] rfl rfl, fun m hm => ?_,
    by decide +kernel, by decide +kernel⟩
  obtain rfl := List.mem_singleton.1 hm
  exact Model.mem_references_referring (by decide)

end Bindery
