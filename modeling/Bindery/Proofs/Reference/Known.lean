import Bindery.Proofs.Reference.Imports

/-! Units with a reference index.

A type that is known to be made in the unit keeps its name and loses its reference; for
local names and their locations it is as if it were not there. So a renaming with an index
comes to what one without comes to for the other types (`renames_tracks_known`), and the
same is true of a whole unit (`Resolves.known`). A reference that is the full name of no type that
names a namespace, as one without a dot is, stays whatever is renamed (`mem_references_renames`). -/
namespace Bindery
open LocalNames

namespace UnitScope

/-- The scope without its index. -/
def forgetful (scope : UnitScope) : UnitScope := { scope with index := [] }

/-- The types of which it is not known that they were made here. -/
def foreign (scope : UnitScope) (ts : List DataType) : List DataType :=
  ts.filter fun t => !scope.madeHere t

/-- What a type is called in a unit with these local names, if it may be made here. -/
def nameIn (scope : UnitScope) (names : LocalNames) (t : DataType) : String :=
  if scope.madeHere t then t.name else scope.textOf names t

theorem mem_foreign {scope : UnitScope} {ts : List DataType} {t : DataType} :
    t ∈ scope.foreign ts ↔ t ∈ ts ∧ scope.madeHere t = false := by
  simp [foreign]

end UnitScope

namespace Renaming
open UnitScope
variable {scope : UnitScope} {names : LocalNames} {refs : SortedSet String}
  {ts ts' : List DataType} {t : DataType} {r r' : Renaming}

/-! ### One type -/

/-- A type that was made here changes references only. -/
theorem rename_of_madeHere (r : Renaming) (h : scope.madeHere t) :
    ∃ references, rename scope r t = ({ r with references }, t.name) := by
  cases hmod : t.isModular with
  | false => exact ⟨r.references, rename_of_not_isModular r hmod⟩
  | true => exact ⟨r.references.erase t.fullName, by simp [rename, hmod, h]⟩

/-- Any other type that names a namespace gets a new name, and its reference too. -/
theorem rename_of_foreign (r : Renaming) (h : scope.madeHere t = false) (hmod : t.isModular) :
    ∃ (r' : Renaming) (name : String), rename scope r t = (r'.replace t.fullName name, name) ∧
      r'.references = r.references ∧
      ∀ references, rename scope.forgetful { r with references } t =
        (Renaming.replace { r' with references } t.fullName name, name) := by
  have hforget : scope.forgetful.madeHere t = false := madeHere_eq_false rfl
  cases hi : relative? scope.moduleName t.fullName with
  | none =>
    have hi' : relative? scope.forgetful.moduleName t.fullName = none := hi
    exact ⟨r, t.name, by simp [rename, hmod, h, hi], rfl,
      fun _ => by simp [rename, hmod, hforget, hi']⟩
  | some i =>
    have hi' : relative? scope.forgetful.moduleName t.fullName = some i := hi
    refine ⟨(r.imported t i).1, (r.imported t i).2, by simp [rename, hmod, h, hi], ?_,
      fun references => ?_⟩
    · cases hc : r.chosen.lookup i.key <;> simp [imported, nameOf, hc]
    · have himported : Renaming.imported { r with references } t i =
          ({ (r.imported t i).1 with references }, (r.imported t i).2) := by
        cases hc : r.chosen.lookup i.key <;> simp [imported, nameOf, hc]
      simp [rename, hmod, hforget, hi', himported]

/-- For such a type the index does not matter, and references matter for references only. -/
theorem rename_forgetful (r : Renaming) (references : SortedSet String)
    (h : scope.madeHere t = false) :
    ∃ references', rename scope.forgetful { r with references } t =
      ({ (rename scope r t).1 with references := references' }, (rename scope r t).2) := by
  cases hmod : t.isModular with
  | false =>
    exact ⟨references, by rw [rename_of_not_isModular _ hmod, rename_of_not_isModular _ hmod]⟩
  | true =>
    obtain ⟨r', name, hrename, _, hforget⟩ := rename_of_foreign r h hmod
    rw [hforget references, hrename, replace_eq, replace_eq r']
    exact ⟨_, rfl⟩

/-- A type that names a namespace has a dot in its full name. -/
theorem fullName_ne_of_not_mem {name : String} (hn : '.' ∉ name.toList) (hmod : t.isModular) :
    t.fullName ≠ name := by
  rintro rfl
  obtain ⟨home, _, _, hfull⟩ := exists_home hmod
  exact hn (by simp [hfull])

/-- A name stays a reference unless it is the full name of a type that names a namespace. -/
theorem mem_references_rename {name : String} (hn : t.isModular → t.fullName ≠ name)
    (h : name ∈ r.references) : name ∈ (rename scope r t).1.references := by
  cases hmod : t.isModular with
  | false => rwa [rename_of_not_isModular r hmod]
  | true =>
    cases hmade : scope.madeHere t with
    | true =>
      simp only [rename, hmod, hmade]
      exact SortedSet.mem_erase.2 ⟨h, (hn hmod).symm⟩
    | false =>
      obtain ⟨r', new, hrename, href, _⟩ := rename_of_foreign r hmade hmod
      rw [hrename]
      exact mem_replace.2 ⟨name, href ▸ h, if_neg (hn hmod).symm⟩

/-! ### All types of a model -/

theorem mem_references_renames {name : String} (hn : ∀ t ∈ ts, t.isModular → t.fullName ≠ name)
    (h : DataType.Renames (rename scope) r ts r' ts') (hr : name ∈ r.references) :
    name ∈ r'.references := by
  induction h with
  | nil => exact hr
  | cons _ _ _ _ _ ih =>
    obtain ⟨hfirst, hrest⟩ := List.forall_mem_cons.1 hn
    exact ih hrest (mem_references_rename hfirst hr)

/-- **A renaming with an index** knows what one without would know from the types that were
not made here, but for references, and names every type as it should be. -/
theorem renames_tracks_known {before : List DataType} {references : SortedSet String}
    (h : DataType.Renames (rename scope) r ts r' ts')
    (hr : Tracks scope.forgetful names refs before { r with references })
    (he : r'.localNames.Extends names) :
    (∃ references', Tracks scope.forgetful names refs (before ++ scope.foreign ts)
      { r' with references := references' }) ∧
      List.Forall₂ (fun t t' => t'.name = scope.nameIn names t ∧ t'.home = t.home ∧
        t'.container = t.container) ts ts' := by
  induction h generalizing before references with
  | nil => exact ⟨⟨references, by simpa [foreign] using hr⟩, .nil⟩
  | @cons s s' t t' ts ts' hname hhome _ hcontainer hrest ih =>
    cases hmade : scope.madeHere t with
    | true =>
      obtain ⟨erased, hrename⟩ := rename_of_madeHere s hmade
      rw [hrename] at hname ih
      have hsame : Tracks scope.forgetful names refs before
          { ({ s with references := erased } : Renaming) with references } := hr
      obtain ⟨hend, hall⟩ := ih hsame he
      refine ⟨?_, .cons ⟨by rw [hname, nameIn, if_pos hmade], hhome, hcontainer⟩ hall⟩
      rwa [foreign, List.filter_cons_of_neg (by simp [hmade])]
    | false =>
      obtain ⟨references', hrename⟩ := rename_forgetful s references hmade
      have hnames : (rename scope.forgetful { s with references } t).1.localNames.Extends names := by
        rw [hrename]
        exact (extends_renames hrest).trans he
      obtain ⟨htext, htracks⟩ := rename_tracks rfl hr hnames
      rw [hrename] at htext htracks
      obtain ⟨hend, hall⟩ := ih htracks he
      refine ⟨?_, .cons ⟨?_, hhome, hcontainer⟩ hall⟩
      · rwa [foreign, List.filter_cons_of_pos (by simp [hmade]), List.append_cons]
      · rw [hname, htext, nameIn, if_neg (by simp [hmade])]
        rfl

end Renaming

/-! ### All models of a unit -/

namespace UnitNames
variable {scope : UnitScope} {s s' : UnitNames} {runs : List (Model × Renaming)}
  {ms' : List Model}

/-- With the local names as they are in the end, every renaming knows what one without an
index would know, keeps the references that no type takes along, and every type has its name. -/
theorem Resolves.known (h : Resolves scope s runs s' ms') {names : LocalNames}
    (he : s'.localNames.Extends names) :
    (∀ run ∈ runs, (∃ references, Renaming.Tracks scope.forgetful names run.1.references
        (scope.foreign run.1.allTypes) { run.2 with references }) ∧
      ∀ name ∈ run.1.references, (∀ t ∈ run.1.allTypes, t.isModular → t.fullName ≠ name) →
        name ∈ run.2.references) ∧
      List.Forall₂ (fun m m' => List.Forall₂ (fun t t' => t'.name = scope.nameIn names t ∧
        t'.home = t.home ∧ t'.container = t.container) m.allTypes m'.allTypes)
        (runs.map Prod.fst) ms' := by
  induction h with
  | nil => exact ⟨fun _ hrun => absurd hrun List.not_mem_nil, .nil⟩
  | @cons s s₁ s' m m' r runs ms' hrenames hnames _ hrest ih =>
    obtain ⟨hknown, htexts⟩ := ih he
    have hr : r.localNames.Extends names := hnames ▸ hrest.extends_names.trans he
    have hstart : s.localNames.Extends names := (Renaming.extends_renames hrenames).trans hr
    obtain ⟨hmine, htext⟩ := Renaming.renames_tracks_known hrenames
      (Renaming.tracks_start (r := ⟨s.localNames, m.references, [], []⟩) hstart) hr
    refine ⟨fun run hrun => ?_, .cons htext htexts⟩
    rcases List.mem_cons.1 hrun with rfl | hrun
    · exact ⟨by simpa using hmine,
        fun name hname hn => Renaming.mem_references_renames hn hrenames hname⟩
    · exact hknown run hrun

end UnitNames

end Bindery
