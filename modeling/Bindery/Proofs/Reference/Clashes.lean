import Bindery.Proofs.Reference.Reaching

/-! Whether the imports of a unit clash.

Local names are handed out while types are renamed. A reference for which no type stands, such as
that to a base class, is imported as it stands; if no type of the model asks for the same location,
it is bound to the imported name itself, whatever has this name in the unit already. What a model
has its unit import (`needed`) and as what (`localNameIn`) is read off the model and the final table
of local names (`exists_needed_of_import`, `exists_import_of_needed`). Locations that types ask for
never clash, so a unit is free of clashes if and only if the others cause none
(`bindings_apart_iff`). -/
namespace Bindery
open LocalNames

namespace UnitScope

/-- The locations that are imported for a name: those of the types with this text, and if there
is no such type, that of the name as it stands. -/
def locations (scope : UnitScope) (names : LocalNames) (m : Model) (x : String) :
    List RelativeImport :=
  match (m.allTypes.filter (scope.textOf names · = x)).filterMap scope.reach? with
  | [] => (relative? scope.moduleName x).toList
  | found => found

/-- The locations that a unit imports for the references of a model. -/
def needed (scope : UnitScope) (names : LocalNames) (m : Model) : List RelativeImport :=
  (m.references.toList.map (scope.carry names m.allTypes)).flatMap fun x =>
    if x ∈ scope.ownNames then [] else scope.locations names m x

instance (scope : UnitScope) (m : Model) (k : RelativeImport) : Decidable (scope.Asks m k) :=
  inferInstanceAs (Decidable (∃ t ∈ m.allTypes, ∃ j ∈ scope.reach? t, j.key = k.key))

/-- What a location is imported as for a model: by its local name if a type of the model asks
for it, and otherwise by its own. -/
def localNameIn (scope : UnitScope) (names : LocalNames) (m : Model) (k : RelativeImport) :
    String :=
  if scope.Asks m k then names.nameAt k else k.name

variable {scope : UnitScope} {names : LocalNames} {m : Model} {k : RelativeImport} {x : String}

theorem localNameIn_of_asks (h : scope.Asks m k) :
    scope.localNameIn names m k = names.nameAt k :=
  if_pos h

theorem localNameIn_of_not_asks (h : ¬ scope.Asks m k) : scope.localNameIn names m k = k.name :=
  if_neg h

theorem mem_locations :
    k ∈ scope.locations names m x ↔
      (∃ t ∈ m.allTypes, scope.reach? t = some k ∧ scope.textOf names t = x) ∨
        ((∀ t ∈ m.allTypes, (scope.reach? t).isSome → scope.textOf names t ≠ x) ∧
          relative? scope.moduleName x = some k) := by
  have hfound : ∀ j, j ∈ (m.allTypes.filter (scope.textOf names · = x)).filterMap scope.reach? ↔
      ∃ t ∈ m.allTypes, scope.reach? t = some j ∧ scope.textOf names t = x := by
    intro j
    simp only [List.mem_filterMap, List.mem_filter, decide_eq_true_eq]
    exact exists_congr fun t => by rw [and_assoc, and_comm (a := scope.textOf names t = x)]
  rw [locations]
  split
  · next hnil =>
    have hno : ∀ t ∈ m.allTypes, (scope.reach? t).isSome → scope.textOf names t ≠ x := by
      intro t ht hsome htext
      obtain ⟨j, hj⟩ := Option.isSome_iff_exists.1 hsome
      have hmem := (hfound j).2 ⟨t, ht, hj, htext⟩
      rw [hnil] at hmem
      cases hmem
    rw [Option.mem_toList]
    constructor
    · exact fun hk => .inr ⟨hno, hk⟩
    · rintro (⟨t, ht, hj, htext⟩ | ⟨_, hk⟩)
      · exact absurd htext (hno t ht (by rw [hj]; rfl))
      · exact hk
  · next hne =>
    rw [hfound]
    refine ⟨.inl, fun h => h.resolve_right fun ⟨hno, _⟩ => ?_⟩
    obtain ⟨j, hj⟩ := List.exists_mem_of_ne_nil _ hne
    obtain ⟨t, ht, hreach, htext⟩ := (hfound j).1 hj
    exact hno t ht (by rw [hreach]; rfl) htext

theorem mem_needed :
    k ∈ scope.needed names m ↔
      ∃ x, scope.EndsAt names m x ∧ x ∉ scope.ownNames ∧ k ∈ scope.locations names m x := by
  simp only [needed, List.mem_flatMap, List.mem_map, SortedSet.mem_toList]
  constructor
  · rintro ⟨x, hends, hk⟩
    split at hk
    · cases hk
    · next hown => exact ⟨x, hends, hown, hk⟩
  · rintro ⟨x, hends, hown, hk⟩
    exact ⟨x, hends, by rwa [if_neg hown]⟩

/-! ### One model -/

/-- What is imported for a reference is a location that the model needs. -/
theorem exists_needed_of_importFor? {r : Renaming}
    (h : r.Tracks scope names m.references m.allTypes) (hinit : scope.packageInit = false)
    (hx : x ∈ r.references) {i : Import} (hi : r.importFor? scope x = some i) :
    ∃ k ∈ scope.needed names m, i.localName = scope.localNameIn names m k ∧
      i.source = some k.source ∧ i.name = k.name := by
  have hends : scope.EndsAt names m x := (h.references x).1 hx
  have hsource : ∀ target j, Renaming.sourceOf scope target j = j.source :=
    Renaming.sourceOf_of_not_packageInit hinit
  obtain ⟨hown, ⟨target, j, htarget, rfl⟩ | ⟨hnone, j, hj, rfl⟩⟩ :=
    Renaming.importFor?_eq_some_iff.1 hi
  · obtain ⟨t, ht, _, hj, rfl⟩ := h.target x target j htarget
    have hasks : scope.Asks m j := ⟨t, ht, j, hj, rfl⟩
    refine ⟨j, mem_needed.2 ⟨_, hends, hown, mem_locations.2 (.inl ⟨t, ht, hj, rfl⟩)⟩, ?_,
      congrArg some (hsource target j), rfl⟩
    rw [localNameIn_of_asks hasks, h.localName_importOf hasks]
  · have hno := (lookup_targets_eq_none_iff h x).1 hnone
    refine ⟨j, mem_needed.2 ⟨x, hends, hown, mem_locations.2 (.inr ⟨hno, hj⟩)⟩, ?_,
      congrArg some (hsource x j), rfl⟩
    by_cases hasks : scope.Asks m j
    · rw [localNameIn_of_asks hasks, h.localName_importOf hasks]
    · rw [localNameIn_of_not_asks hasks, h.localName_importOf_of_not hasks]

/-- What a model needs is imported for one of its references. -/
theorem exists_importFor?_of_needed {r : Renaming} {reserved : List String}
    (h : r.Tracks scope names m.references m.allTypes) (hs : names.Separate reserved)
    (hinit : scope.packageInit = false)
    (hdots : ∀ t ∈ m.allTypes, t.isModular → '.' ∉ t.name.toList)
    (hk : k ∈ scope.needed names m) :
    ∃ x ∈ r.references, ∃ i, r.importFor? scope x = some i ∧
      i.localName = scope.localNameIn names m k ∧ i.source = some k.source ∧ i.name = k.name := by
  obtain ⟨x, hends, hown, hk⟩ := mem_needed.1 hk
  refine ⟨x, (h.references x).2 hends, ?_⟩
  rcases mem_locations.1 hk with ⟨t, ht, hreach, rfl⟩ | ⟨hno, hrel⟩
  · obtain ⟨⟨target, j⟩, htarget⟩ :=
      Option.isSome_iff_exists.1 (h.targeted t ht (by rw [hreach]; rfl))
    have hi := Renaming.importFor?_eq_some_iff.2 ⟨hown, .inl ⟨target, j, htarget, rfl⟩⟩
    -- The type that is remembered for this text may be another one, at the same location.
    obtain ⟨hsource, hname, hlocal⟩ := h.importFor?_textOf hs hinit hdots ht hreach hi
    refine ⟨_, hi, ?_, hsource, hname⟩
    rw [hlocal, localNameIn_of_asks ⟨t, ht, k, hreach, rfl⟩]
  · refine ⟨_, Renaming.importFor?_eq_some_iff.2
      ⟨hown, .inr ⟨(lookup_targets_eq_none_iff h x).2 hno, k, hrel, rfl⟩⟩, ?_, ?_, rfl⟩
    · by_cases hasks : scope.Asks m k
      · rw [localNameIn_of_asks hasks, h.localName_importOf hasks]
      · rw [localNameIn_of_not_asks hasks, h.localName_importOf_of_not hasks]
    · exact congrArg some (Renaming.sourceOf_of_not_packageInit hinit x k)

end UnitScope

/-! ### Units -/

section Units
variable {models order : List Model} {plan : UnitPlan}

theorem packageInit_plainScope (hkind : plan.kind ≠ .packageInit) :
    plan.plainScope.packageInit = false :=
  decide_eq_false hkind

/-- If models bring no imports, each import of a unit is a location that one of them needs. -/
theorem exists_needed_of_import (hkind : plan.kind ≠ .packageInit)
    (hnone : ∀ m ∈ order, m.imports = []) {i : Import}
    (hi : i ∈ (plan.resolveIn order).1.imports) :
    ∃ m ∈ order, ∃ k ∈ plan.plainScope.needed (plan.resolveIn order).1.localNames m,
      i.localName = plan.plainScope.localNameIn (plan.resolveIn order).1.localNames m k ∧
        i.source = some k.source ∧ i.name = k.name := by
  obtain ⟨runs, rfl, hresolves, _, htracks, _⟩ := resolveIn_spec plan order
  have hstart : i ∉ (UnitNames.ofPlan plan).imports := List.not_mem_nil
  obtain ⟨run, hrun, hi⟩ := ((hresolves.mem_imports i).1 hi).resolve_left hstart
  have hm : run.1 ∈ runs.map Prod.fst := List.mem_map_of_mem hrun
  obtain ⟨x, hx, hi⟩ := hi.resolve_left (by simp [hnone run.1 hm])
  exact ⟨run.1, hm, UnitScope.exists_needed_of_importFor? (htracks run hrun)
    (packageInit_plainScope hkind) hx hi⟩

/-- Whatever a model needs is imported. -/
theorem exists_import_of_needed (hkind : plan.kind ≠ .packageInit)
    (hdots : ∀ m ∈ order, ∀ t ∈ m.allTypes, t.isModular → '.' ∉ t.name.toList) {m : Model}
    (hm : m ∈ order) {k : RelativeImport}
    (hk : k ∈ plan.plainScope.needed (plan.resolveIn order).1.localNames m) :
    ∃ i ∈ (plan.resolveIn order).1.imports,
      i.localName = plan.plainScope.localNameIn (plan.resolveIn order).1.localNames m k ∧
        i.source = some k.source ∧ i.name = k.name := by
  obtain ⟨runs, rfl, hresolves, hsep, htracks, _⟩ := resolveIn_spec plan order
  obtain ⟨run, hrun, rfl⟩ := List.mem_map.1 hm
  obtain ⟨x, hx, i, hi, hrest⟩ := UnitScope.exists_importFor?_of_needed (htracks run hrun) hsep
    (packageInit_plainScope hkind) (hdots run.1 hm) hk
  exact ⟨i, (hresolves.mem_imports i).2 (.inr ⟨run, hrun, .inr ⟨x, hx, hi⟩⟩), hrest⟩

/-- A location that a type asks for is in the table of the unit. -/
theorem lookup_of_asks {m : Model} (hm : m ∈ order) {k : RelativeImport}
    (hasks : plan.plainScope.Asks m k) :
    (plan.resolveIn order).1.localNames.assigned.lookup k.key =
      some ((plan.resolveIn order).1.localNames.nameAt k) := by
  obtain ⟨t, ht, j, hj, hkey⟩ := hasks
  have hlookup := lookup_of_reach? hm ht hj
  rw [hkey] at hlookup
  rw [nameAt, hlookup, Option.getD_some]

/-- What is imported under one name is one location, if that is so for what no type asks for. -/
theorem key_eq_of_localNameIn_eq (horder : order.Perm plan.models)
    (hunasked : ∀ m ∈ plan.models,
      ∀ k ∈ plan.plainScope.needed (plan.resolveIn order).1.localNames m,
      ¬ plan.plainScope.Asks m k → ∀ m' ∈ plan.models,
        ∀ k' ∈ plan.plainScope.needed (plan.resolveIn order).1.localNames m',
        plan.plainScope.localNameIn (plan.resolveIn order).1.localNames m' k' = k.name →
        k'.key = k.key)
    {m m' : Model} (hm : m ∈ order) (hm' : m' ∈ order) {k k' : RelativeImport}
    (hk : k ∈ plan.plainScope.needed (plan.resolveIn order).1.localNames m)
    (hk' : k' ∈ plan.plainScope.needed (plan.resolveIn order).1.localNames m')
    (hlocal : plan.plainScope.localNameIn (plan.resolveIn order).1.localNames m k =
      plan.plainScope.localNameIn (plan.resolveIn order).1.localNames m' k') :
    k.key = k'.key := by
  obtain ⟨_, _, _, hsep, _⟩ := resolveIn_spec plan order
  by_cases hasks : plan.plainScope.Asks m k
  · by_cases hasks' : plan.plainScope.Asks m' k'
    · rw [UnitScope.localNameIn_of_asks hasks, UnitScope.localNameIn_of_asks hasks'] at hlocal
      exact (nameAt_eq_iff hsep (lookup_of_asks hm hasks) (lookup_of_asks hm' hasks')).1 hlocal
    · rw [UnitScope.localNameIn_of_not_asks hasks'] at hlocal
      exact hunasked m' (horder.mem_iff.1 hm') k' hk' hasks' m (horder.mem_iff.1 hm) k hk hlocal
  · rw [UnitScope.localNameIn_of_not_asks hasks] at hlocal
    exact (hunasked m (horder.mem_iff.1 hm) k hk hasks m' (horder.mem_iff.1 hm') k' hk'
      hlocal.symm).symm

/-- **Only what no type asks for can clash.** In a unit that is no package below the root, and
whose models bring no imports, no local name is bound to two locations and none is the name of a
model of the unit, if and only if this is so for each location that a model needs and none of its
types asks for: its own name is no model's, and nothing else is imported under it. -/
theorem bindings_apart_iff (hd : (models.map Model.qualifiedName).Nodup) (hdots : DotFree models)
    (hplan : PlannedIn models plan) (hkind : plan.kind ≠ .packageInit)
    (horder : order.Perm plan.models) (hnone : ∀ m ∈ plan.models, m.imports = []) :
    ((∀ i ∈ (plan.resolveIn order).1.imports, ∀ j ∈ (plan.resolveIn order).1.imports,
        i.localName = j.localName → i.source = j.source ∧ i.name = j.name) ∧
      ∀ i ∈ (plan.resolveIn order).1.imports, ∀ own ∈ plan.models, own.name ≠ i.localName) ↔
      ∀ m ∈ plan.models, ∀ k ∈ plan.plainScope.needed (plan.resolveIn order).1.localNames m,
        ¬ plan.plainScope.Asks m k →
        (∀ own ∈ plan.models, own.name ≠ k.name) ∧
        ∀ m' ∈ plan.models, ∀ k' ∈ plan.plainScope.needed (plan.resolveIn order).1.localNames m',
          plan.plainScope.localNameIn (plan.resolveIn order).1.localNames m' k' = k.name →
          k'.key = k.key := by
  have hdot : ∀ m ∈ order, ∀ t ∈ m.allTypes, t.isModular → '.' ∉ t.name.toList :=
    fun m hm => hdots.type m ((hplan.mem_models hd).1 (horder.mem_iff.1 hm)).1
  have hnone' : ∀ m ∈ order, m.imports = [] := fun m hm => hnone m (horder.mem_iff.1 hm)
  obtain ⟨_, _, _, hsep, _⟩ := resolveIn_spec plan order
  constructor
  · rintro ⟨hapart, hown⟩ m hm k hk hasks
    obtain ⟨i, hi, hlocal, hsource, hname⟩ :=
      exists_import_of_needed hkind hdot (horder.mem_iff.2 hm) hk
    rw [UnitScope.localNameIn_of_not_asks hasks] at hlocal
    refine ⟨fun own hmine => hlocal ▸ hown i hi own hmine, fun m' hm' k' hk' hsame => ?_⟩
    obtain ⟨j, hj, hlocal', hsource', hname'⟩ :=
      exists_import_of_needed hkind hdot (horder.mem_iff.2 hm') hk'
    obtain ⟨hsources, hnames⟩ := hapart j hj i hi (hlocal'.trans (hsame.trans hlocal.symm))
    rw [hsource, hsource', Option.some.injEq] at hsources
    rw [hname, hname'] at hnames
    exact Prod.ext hsources hnames
  · intro h
    constructor
    · intro i hi j hj hlocals
      obtain ⟨m, hm, k, hk, hlocal, hsource, hname⟩ := exists_needed_of_import hkind hnone' hi
      obtain ⟨m', hm', k', hk', hlocal', hsource', hname'⟩ :=
        exists_needed_of_import hkind hnone' hj
      rw [hlocal, hlocal'] at hlocals
      have hkey : k.key = k'.key := key_eq_of_localNameIn_eq horder
        (fun m hm k hk hasks => (h m hm k hk hasks).2) hm hm' hk hk' hlocals
      rw [hsource, hsource', hname, hname']
      exact ⟨congrArg some (congrArg Prod.fst hkey), congrArg Prod.snd hkey⟩
    · intro i hi own hown he
      obtain ⟨m, hm, k, hk, hlocal, _⟩ := exists_needed_of_import hkind hnone' hi
      by_cases hasks : plan.plainScope.Asks m k
      · rw [UnitScope.localNameIn_of_asks hasks] at hlocal
        refine hsep.not_reserved k.key _ (lookup_of_asks hm hasks) ?_
        exact hlocal ▸ he ▸ List.mem_map_of_mem hown
      · rw [UnitScope.localNameIn_of_not_asks hasks] at hlocal
        exact (h m (horder.mem_iff.1 hm) k hk hasks).1 own hown (he.trans hlocal)

/-- A model of `x` with a type of the namespace `a.pets` and a base class of another namespace. -/
def ownerOf (base : String) : Model :=
  { Model.referring ["x"] "Owner" [("a.pets", "Pet")] with
    bases := [base]
    references := .ofList ["a.pets.Pet", base] }

/-- The unit of the model. -/
def ownerUnit (base : String) : UnitPlan := ⟨["x.py"], ["x"], .leaf, [ownerOf base]⟩

/-- A base class of `b.kinds` is imported as it stands, and `kinds` is nothing else in the unit. -/
theorem bindings_apart_beside_kinds :
    let models := [ownerOf "b.kinds.Base", .referring ["a", "pets"] "Pet" [],
      .referring ["b", "kinds"] "Base" []]
    let plan := ownerUnit "b.kinds.Base"
    (models.map Model.qualifiedName).Nodup ∧ DotFree models ∧ PlannedIn models plan ∧
      plan.kind ≠ .packageInit ∧ (∀ m ∈ plan.models, m.imports = []) ∧
      (plan.resolveIn plan.models).1.imports.toList.map Import.text =
        ["from .a import pets", "from .b import kinds"] ∧
      ∀ i ∈ (plan.resolveIn plan.models).1.imports, ∀ own ∈ plan.models,
        own.name ≠ i.localName := by
  intro models plan
  have hd : (models.map Model.qualifiedName).Nodup := by decide
  have hdots : DotFree models := ⟨by decide, by decide, by decide⟩
  have hplan : PlannedIn models plan := plannedIn_of_sorted 1
    [.referring ["a", "pets"] "Pet" [], .referring ["b", "kinds"] "Base" [],
      ownerOf "b.kinds.Base"] plan.key rfl rfl
  have hkind : plan.kind ≠ .packageInit := by decide
  have hnone : ∀ m ∈ plan.models, m.imports = [] := by decide
  refine ⟨hd, hdots, hplan, hkind, hnone, by decide, ?_⟩
  exact ((bindings_apart_iff hd hdots hplan hkind (.refl _) hnone).2 (by decide)).2

/-- A base class of `b.pets` is imported as it stands too, and now `pets` is two namespaces. -/
theorem bindings_not_apart_beside_pets :
    let models := [ownerOf "b.pets.Base", .referring ["a", "pets"] "Pet" [],
      .referring ["b", "pets"] "Base" []]
    let plan := ownerUnit "b.pets.Base"
    (models.map Model.qualifiedName).Nodup ∧ DotFree models ∧ PlannedIn models plan ∧
      (∀ m ∈ plan.models, m.imports = []) ∧
      (plan.resolveIn plan.models).1.imports.toList.map Import.text =
        ["from .a import pets", "from .b import pets"] ∧
      ¬ ∀ i ∈ (plan.resolveIn plan.models).1.imports.toList,
        ∀ j ∈ (plan.resolveIn plan.models).1.imports.toList,
        i.localName = j.localName → i.source = j.source ∧ i.name = j.name := by
  intro models plan
  exact ⟨by decide, ⟨by decide, by decide, by decide⟩,
    plannedIn_of_sorted 1 [.referring ["a", "pets"] "Pet" [], .referring ["b", "pets"] "Base" [],
      ownerOf "b.pets.Base"] plan.key rfl rfl, by decide, by decide, by decide⟩

end Units

end Bindery
