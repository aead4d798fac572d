import Bindery.Proofs.Reference.Unit

/-! What a unit imports.

The models of a unit are resolved one after the other, and each adds imports for what its
references name in the end. Which local names these bind is a matter of the model and of
the final table of local names alone (`Binds`): an import is for the text of a type that
is reached from elsewhere, and then has that location's name, or for a reference that is
no such text, which is imported as it stands (`binds_of_importFor?`,
`exists_importFor?_of_binds`). -/
namespace Bindery
open LocalNames

/-! ### One name of a reference set -/

namespace Renaming
variable {scope : UnitScope} {names : LocalNames} {refs : SortedSet String}
  {ts : List DataType} {r : Renaming}

/-- Where the import of a model comes from. -/
def sourceOf (scope : UnitScope) (target : String) (i : RelativeImport) : String :=
  if scope.packageInit then
    ((relativeFromPackage? scope.moduleName target).map RelativeImport.source).getD i.source
  else i.source

/-- Only from the init module of a package it is another place than from a module. -/
theorem sourceOf_of_not_packageInit (h : scope.packageInit = false) (target : String)
    (i : RelativeImport) : sourceOf scope target i = i.source := by
  rw [sourceOf, h, if_neg Bool.false_ne_true]

/-- The import of a model. -/
def importOf (scope : UnitScope) (r : Renaming) (target : String) (i : RelativeImport) : Import :=
  ⟨some (sourceOf scope target i), i.name, (r.chosen.lookup i.key).getD none⟩

/-- A name of a reference set is imported if it is none of the unit's own: as the type
that it is the text of, and if there is none, as it stands. -/
theorem importFor?_eq_some_iff {name : String} {i : Import} :
    r.importFor? scope name = some i ↔ name ∉ scope.ownNames ∧
      ((∃ target j, r.targets.lookup name = some (target, j) ∧ r.importOf scope target j = i) ∨
        (r.targets.lookup name = none ∧ ∃ j, relative? scope.moduleName name = some j ∧
          r.importOf scope name j = i)) := by
  rw [importFor?]
  split
  · next hown => simp [hown]
  · next hown =>
    cases r.targets.lookup name with
    | some known =>
      obtain ⟨target, j⟩ := known
      simp [hown, importOf, sourceOf, and_assoc]
    | none =>
      cases relative? scope.moduleName name <;> simp [hown, importOf, sourceOf]

/-- A location that a type asked for has its name. -/
theorem Tracks.localName_importOf (h : Tracks scope names refs ts r) {target : String}
    {i : RelativeImport} (hasked : ∃ t ∈ ts, ∃ j, scope.reach? t = some j ∧ j.key = i.key) :
    (r.importOf scope target i).localName = names.nameAt i := by
  obtain ⟨given, hgiven⟩ := Option.isSome_iff_exists.1 ((h.asked i.key).2 hasked)
  have hname : names.assigned.lookup i.key = some (given.getD i.name) := h.chosen _ _ hgiven
  rw [Import.localName, importOf, hgiven, nameAt, hname]
  rfl

/-- Any other location is imported under its own name. -/
theorem Tracks.localName_importOf_of_not (h : Tracks scope names refs ts r) {target : String}
    {i : RelativeImport} (hasked : ¬ ∃ t ∈ ts, ∃ j, scope.reach? t = some j ∧ j.key = i.key) :
    (r.importOf scope target i).localName = i.name := by
  have hnone : r.chosen.lookup i.key = none := by
    rw [← Option.not_isSome_iff_eq_none, h.asked]
    exact hasked
  rw [Import.localName, importOf, hnone]
  rfl

end Renaming

/-! ### One model -/

namespace UnitScope
variable {scope : UnitScope} {names : LocalNames}

/-- After its types were renamed, a model refers to `name`. -/
def EndsAt (scope : UnitScope) (names : LocalNames) (m : Model) (name : String) : Prop :=
  ∃ r ∈ m.references, scope.carry names m.allTypes r = name

/-- Some type of a model asks for the location of an import. -/
def Asks (scope : UnitScope) (m : Model) (i : RelativeImport) : Prop :=
  ∃ t ∈ m.allTypes, ∃ j, scope.reach? t = some j ∧ j.key = i.key

/-- A model makes its unit import something as `a`: it asks for it itself, or one of its
references ends at the text of a type that is reached under this name, or at a text that
no type has and whose own location has this name. The unit's own names are not imported. -/
inductive Binds (scope : UnitScope) (names : LocalNames) (m : Model) (a : String) : Prop where
  | given (i : Import) : i ∈ m.imports → i.localName = a → Binds scope names m a
  | type (t : DataType) (i : RelativeImport) : t ∈ m.allTypes → scope.reach? t = some i →
      scope.EndsAt names m (scope.textOf names t) → scope.textOf names t ∉ scope.ownNames →
      names.nameAt i = a → Binds scope names m a
  | plain (name : String) (i : RelativeImport) : scope.EndsAt names m name →
      name ∉ scope.ownNames →
      (∀ t ∈ m.allTypes, (scope.reach? t).isSome → scope.textOf names t ≠ name) →
      relative? scope.moduleName name = some i →
      (scope.Asks m i → names.nameAt i = a) → (¬ scope.Asks m i → i.name = a) →
      Binds scope names m a

/-- What a text begins with is the local name of its location. -/
theorem before_textOf {reserved : List String} (hs : names.Separate reserved) {t : DataType}
    {i : RelativeImport} (hn : '.' ∉ t.name.toList) (hi : scope.reach? t = some i) :
    Text.before "." (scope.textOf names t) = names.nameAt i := by
  have hdot := dot_not_mem_nameAt hs hn hi
  simp only [textOf, hi]
  split
  · exact Dotted.before_of_not_mem hdot
  · exact Dotted.before_append hdot t.name

variable {m : Model} {r : Renaming} {reserved : List String}

/-- A name that no type stands behind is the text of no type from elsewhere, and the other
way round. -/
theorem lookup_targets_eq_none_iff (h : r.Tracks scope names m.references m.allTypes) (x : String) :
    r.targets.lookup x = none ↔
      ∀ t ∈ m.allTypes, (scope.reach? t).isSome → scope.textOf names t ≠ x := by
  constructor
  · rintro hnone t ht hsome rfl
    have htarget := h.targeted t ht hsome
    rw [hnone] at htarget
    cases htarget
  · intro hno
    rw [← Option.not_isSome_iff_eq_none]
    intro hsome
    obtain ⟨⟨target, j⟩, htarget⟩ := Option.isSome_iff_exists.1 hsome
    obtain ⟨t, ht, _, hj, htext⟩ := h.target x target j htarget
    exact hno t ht (by rw [hj]; rfl) htext

/-- An import for a reference binds its local name. -/
theorem binds_of_importFor? (h : r.Tracks scope names m.references m.allTypes) {x : String}
    (hx : x ∈ r.references) {i : Import} (hi : r.importFor? scope x = some i) :
    scope.Binds names m i.localName := by
  have hend : scope.EndsAt names m x := (h.references x).1 hx
  obtain ⟨hown, ⟨target, j, htarget, rfl⟩ | ⟨hnone, j, hj, rfl⟩⟩ :=
    Renaming.importFor?_eq_some_iff.1 hi
  · obtain ⟨t, ht, _, hj, rfl⟩ := h.target x target j htarget
    exact .type t j ht hj hend hown (h.localName_importOf ⟨t, ht, j, hj, rfl⟩).symm
  · exact .plain x j hend hown ((lookup_targets_eq_none_iff h x).1 hnone) hj
      (fun hasks => (h.localName_importOf hasks).symm)
      fun hasks => (h.localName_importOf_of_not hasks).symm

/-- What a model binds is the local name of an import of its own or for a reference. -/
theorem exists_importFor?_of_binds (h : r.Tracks scope names m.references m.allTypes)
    (hs : names.Separate reserved)
    (hdots : ∀ t ∈ m.allTypes, t.isModular → '.' ∉ t.name.toList) {a : String}
    (hbinds : scope.Binds names m a) :
    (∃ i ∈ m.imports, i.localName = a) ∨
      ∃ x ∈ r.references, ∃ i, r.importFor? scope x = some i ∧ i.localName = a := by
  have htype : ∀ t ∈ m.allTypes, ∀ i, scope.reach? t = some i → '.' ∉ t.name.toList :=
    fun t ht i hi => hdots t ht (reach?_eq_some_iff.1 hi).1
  cases hbinds with
  | given i hi ha => exact .inl ⟨i, hi, ha⟩
  | type t i ht hi hend hown ha =>
    -- Whatever type stands behind the text, its location has the same local name.
    obtain ⟨⟨target, j⟩, htarget⟩ :=
      Option.isSome_iff_exists.1 (h.targeted t ht (by rw [hi]; rfl))
    obtain ⟨t', ht', _, hj, htext⟩ := h.target _ target j htarget
    refine .inr ⟨_, (h.references _).2 hend, _,
      Renaming.importFor?_eq_some_iff.2 ⟨hown, .inl ⟨_, _, htarget, rfl⟩⟩, ?_⟩
    rw [h.localName_importOf ⟨t', ht', j, hj, rfl⟩,
      ← before_textOf hs (htype t' ht' j hj) hj, htext,
      before_textOf hs (htype t ht i hi) hi, ha]
  | plain x i hend hown hno hi hasked hplain =>
    refine .inr ⟨x, (h.references x).2 hend, _, Renaming.importFor?_eq_some_iff.2
      ⟨hown, .inr ⟨(lookup_targets_eq_none_iff h x).2 hno, i, hi, rfl⟩⟩, ?_⟩
    by_cases hasks : scope.Asks m i
    · rw [h.localName_importOf hasks, hasked hasks]
    · rw [h.localName_importOf_of_not hasks, hplain hasks]

end UnitScope

/-! ### All models of a unit -/

namespace UnitNames
open Renaming
variable {scope : UnitScope} {names : LocalNames} {reserved : List String}

/-- Models are resolved one after the other, each with a renaming of its own, and become
other models. -/
inductive Resolves (scope : UnitScope) :
    UnitNames → List (Model × Renaming) → UnitNames → List Model → Prop where
  | nil {s : UnitNames} : Resolves scope s [] s []
  | cons {s s' s'' : UnitNames} {m m' : Model} {r : Renaming} {runs : List (Model × Renaming)}
      {ms' : List Model} :
      DataType.Renames (rename scope) ⟨s.localNames, m.references, [], []⟩ m.allTypes r
        m'.allTypes →
      s'.localNames = r.localNames →
      (∀ i, i ∈ s'.imports ↔ i ∈ s.imports ∨ i ∈ m.imports ∨
        ∃ x ∈ r.references, r.importFor? scope x = some i) →
      Resolves scope s' runs s'' ms' → Resolves scope s ((m, r) :: runs) s'' (m' :: ms')

theorem mem_resolve_imports (s : UnitNames) (m : Model) (i : Import) :
    i ∈ (s.resolve scope m).1.imports ↔ i ∈ s.imports ∨ i ∈ m.imports ∨
      ∃ x ∈ (m.renameTypes (rename scope) ⟨s.localNames, m.references, [], []⟩).1.references,
        (m.renameTypes (rename scope) ⟨s.localNames, m.references, [], []⟩).1.importFor? scope x =
          some i := by
  simp only [resolve, SortedSet.mem_insertAll, List.mem_filterMap, SortedSet.mem_toList]
  grind

theorem resolveAll_resolves (scope : UnitScope) (s : UnitNames) (models : List Model) :
    ∃ runs, runs.map Prod.fst = models ∧
      Resolves scope s runs (s.resolveAll scope models).1 (s.resolveAll scope models).2 := by
  induction models generalizing s with
  | nil => exact ⟨[], rfl, .nil⟩
  | cons m rest ih =>
    obtain ⟨runs, hruns, h⟩ := ih (s.resolve scope m).1
    exact ⟨(m, _) :: runs, by rw [List.map_cons, hruns],
      .cons (m.renameTypes_renames _) rfl (mem_resolve_imports s m) h⟩

section Run
variable {s s' : UnitNames} {runs : List (Model × Renaming)} {ms' : List Model}

theorem Resolves.extends_names (h : Resolves scope s runs s' ms') :
    s.localNames.Extends s'.localNames := by
  induction h with
  | nil => exact .refl _
  | cons hrenames hnames _ _ ih =>
    rw [hnames] at ih
    exact (extends_renames hrenames).trans ih

theorem Resolves.separate (h : Resolves scope s runs s' ms')
    (hs : s.localNames.Separate reserved) : s'.localNames.Separate reserved := by
  induction h with
  | nil => exact hs
  | cons hrenames hnames _ _ ih =>
    rw [hnames] at ih
    exact ih (separate_renames hrenames hs)

theorem Resolves.mem_imports (h : Resolves scope s runs s' ms') (i : Import) :
    i ∈ s'.imports ↔ i ∈ s.imports ∨ ∃ run ∈ runs, i ∈ run.1.imports ∨
      ∃ x ∈ run.2.references, run.2.importFor? scope x = some i := by
  induction h with
  | nil => simp
  | cons _ _ himports _ ih =>
    rw [ih, himports]
    simp only [List.mem_cons, exists_eq_or_imp, or_assoc]

/-- With the local names as they are in the end, every renaming is what it should be, and
every type has its text. -/
theorem Resolves.tracks (hindex : scope.index = []) (h : Resolves scope s runs s' ms')
    (he : s'.localNames.Extends names) :
    (∀ run ∈ runs, run.2.Tracks scope names run.1.references run.1.allTypes) ∧
      List.Forall₂ (fun m m' => List.Forall₂ (fun t t' => t'.name = scope.textOf names t ∧
        t'.home = t.home ∧ t'.container = t.container) m.allTypes m'.allTypes)
        (runs.map Prod.fst) ms' := by
  induction h with
  | nil => exact ⟨fun _ hrun => absurd hrun List.not_mem_nil, .nil⟩
  | @cons s s₁ s' m m' r runs ms' hrenames hnames _ hrest ih =>
    obtain ⟨htracks, htexts⟩ := ih he
    have hr : r.localNames.Extends names := hnames ▸ hrest.extends_names.trans he
    have hstart : s.localNames.Extends names := (extends_renames hrenames).trans hr
    obtain ⟨hmine, htext⟩ := renames_tracks hindex hrenames
      (tracks_start (r := ⟨s.localNames, m.references, [], []⟩) hstart) hr
    refine ⟨fun run hrun => ?_, .cons htext htexts⟩
    rcases List.mem_cons.1 hrun with rfl | hrun
    · simpa using hmine
    · exact htracks run hrun

end Run

end UnitNames

end Bindery
