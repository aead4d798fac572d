import Bindery.Proofs.Assembly.Scope
import Bindery.Proofs.Reference.Topmost
import Bindery.Proofs.Source.Rendering

/-! Base classes in the header of a class.

Types are renamed to what the imports of a unit bind; base classes are not, and stand in the header
as they were written. A header is read like any other text: its first part means what it was last
bound to, and the others are looked up from there (`UnitPlan.evaluate?`). So the qualified name of a
model of another namespace leads to this model only if its first part is imported from the topmost
package (`evaluate?_qualifiedName_iff`). The import that is computed for the base class is this one
if the model lives at the top; for a model that lives deeper it binds a later part of the name, and
the header leads nowhere unless the unit has another import for it (`bases_reached_iff`). -/
namespace Bindery
open Dotted RelativeImport

namespace Text

/-- What stands before the first dot is the first piece. -/
theorem before_of_pieces {text first : String} {rest : List String}
    (h : pieces '.' text = first :: rest) : before "." text = first := by
  have hdot : '.' ∉ first.toList := not_mem_of_mem_pieces (h ▸ List.mem_cons_self)
  have hjoin : join "." (pieces '.' text) = text := join_pieces '.' text
  rw [← hjoin, h]
  cases rest with
  | nil => exact Dotted.before_of_not_mem hdot
  | cons next rest =>
    rw [join_cons (List.cons_ne_nil next rest)]
    exact Dotted.before_append hdot _

/-- If two dotted texts with one end are the same, and the one has a single part in front, so has
the other. -/
theorem eq_of_join_eq {first name : String} {front rest : List String} (hdot : '.' ∉ first.toList)
    (h : join "." (first :: rest) = join "." (front ++ name :: rest)) :
    front = [] ∧ name = first := by
  have hfirst : first = join "." (front ++ [name]) := by
    cases rest with
    | nil => exact h
    | cons next rest =>
      rw [List.append_cons, ← List.singleton_append, join_append "." (by simp) (by simp),
        join_append "." (by simp) (by simp)] at h
      have hchars := congrArg String.toList h
      simp only [String.toList_append, List.append_cancel_right_eq] at hchars
      exact String.toList_inj.1 hchars
  by_cases hfront : front = []
  · subst hfront
    exact ⟨rfl, hfirst.symm⟩
  · rw [join_concat hfront] at hfirst
    exact absurd (by simp [hfirst]) hdot

end Text

/-! ### What a header leads to -/

/-- What a dotted text leads to in a unit. Its first part means a class of the unit, which has
nothing below it, or what an import brings, found from the package at hand. The other parts are
looked up there one after the other, a namespace in the one above it and a class in its own. -/
def UnitPlan.evaluate? (plan : UnitPlan) (bindings : Bindings) (text : String) :
    Option (List String) :=
  match Text.pieces '.' text with
  | [] => none
  | first :: rest =>
    match bindings.meaning? first with
    | some .written => if rest = [] then some (plan.path ++ [first]) else none
    | some (.imported (some source) name) =>
      (follow? plan.package source).map (· ++ name :: rest)
    | some (.imported none _) => none
    | none => none

/-- **A qualified name begins at the top.** It leads to a model of another namespace exactly if no
part of it has a dot, and its first part is imported from the topmost package. -/
theorem evaluate?_qualifiedName_iff {plan : UnitPlan} {bindings : Bindings} {t : Model}
    (hne : t.path ≠ plan.path) :
    plan.evaluate? bindings t.qualifiedName = some (t.path ++ [t.name]) ↔
      (∀ s ∈ t.path ++ [t.name], '.' ∉ s.toList) ∧
        bindings.meaning? (Text.before "." t.qualifiedName) =
          some (.imported (some plan.topSource) (Text.before "." t.qualifiedName)) := by
  obtain ⟨first, rest, hpieces⟩ :=
    List.exists_cons_of_ne_nil (Text.pieces_ne_nil '.' t.qualifiedName)
  have hjoin : Text.join "." (Text.pieces '.' t.qualifiedName) = t.qualifiedName :=
    Text.join_pieces '.' t.qualifiedName
  rw [hpieces] at hjoin
  have hdots : ∀ s ∈ first :: rest, '.' ∉ s.toList :=
    fun s hs => Text.not_mem_of_mem_pieces (hpieces ▸ hs)
  rw [UnitPlan.evaluate?, hpieces, Text.before_of_pieces hpieces]
  constructor
  · intro h
    cases hmeaning : bindings.meaning? first with
    | none => simp [hmeaning] at h
    | some meaning =>
      simp only [hmeaning] at h
      match meaning with
      | .written =>
        -- A class of the unit has another namespace.
        simp only [Option.ite_none_right_eq_some, Option.some.injEq] at h
        exact absurd (List.append_inj' h.2 rfl).1.symm hne
      | .imported none _ => cases h
      | .imported (some source) name =>
        obtain ⟨place, hfollow, hlocation⟩ := Option.map_eq_some_iff.1 h
        have hsame : Text.join "." (first :: rest) = Text.join "." (place ++ name :: rest) := by
          rw [hjoin, hlocation, t.qualifiedName_eq_join]
        obtain ⟨rfl, rfl⟩ := Text.eq_of_join_eq (hdots first List.mem_cons_self) hsame
        rw [follow?_eq_top_iff.1 hfollow, ← hlocation]
        exact ⟨hdots, rfl⟩
  · rintro ⟨hproper, hmeaning⟩
    have hlocation : t.path ++ [t.name] = first :: rest := by
      rw [← hpieces, t.qualifiedName_eq_join]
      exact (pieces_join (by simp) hproper).symm
    have htop : follow? plan.package plan.topSource = some [] := follow?_eq_top_iff.2 rfl
    simp only [hmeaning, htop, hlocation, Option.map_some, List.nil_append]

/-! ### What a unit imports for a base class -/

/-- Where a unit imports a name from that it refers to as it stands, and what it imports. -/
def UnitScope.locate? (scope : UnitScope) (name : String) : Option (String × String) :=
  (relative? scope.moduleName name).map fun i => (Renaming.sourceOf scope name i, i.name)

/-- In a unit in which the model `m` becomes `m'`, a name is for a base class alone: no model of the
unit is called so, and no type of the model, before or after its types are renamed. -/
structure UnitPlan.BaseOnly (plan : UnitPlan) (m m' : Model) (name : String) : Prop where
  own : ∀ own ∈ plan.models, own.name ≠ name
  type : ∀ t ∈ m.allTypes, t.fullName ≠ name
  text : ∀ t ∈ m'.allTypes, t.name ≠ name

/-- Resolving keeps the places, names and base classes of models. -/
theorem UnitNames.exists_resolved_of_place (scope : UnitScope) (s : UnitNames) {models : List Model}
    {place : Nat} {m : Model} (hm : models[place]? = some m) :
    ∃ m', (s.resolveAll scope models).2[place]? = some m' ∧ m'.name = m.name ∧
      m'.bases = m.bases := by
  induction models generalizing s place with
  | nil => cases hm
  | cons head rest ih =>
    cases place with
    | zero =>
      cases hm
      exact ⟨_, rfl, rfl, rfl⟩
    | succ place => exact ih _ hm

/-- What belongs together stands in one place. -/
theorem exists_getElem?_of_forall₂ {α β : Type} {R : α → β → Prop} {as : List α} {bs : List β}
    (h : List.Forall₂ R as bs) {place : Nat} {a : α} (ha : as[place]? = some a) :
    ∃ b, bs[place]? = some b ∧ R a b := by
  induction h generalizing place with
  | nil => cases ha
  | @cons a' b' _ _ hab _ ih =>
    cases place with
    | zero =>
      cases ha
      exact ⟨b', rfl, hab⟩
    | succ place => exact ih ha

section Units
variable {models : List Model} {plan : UnitPlan} {place : Nat} {m m' t : Model}

/-- A base class that the model refers to is imported from where it is located. -/
theorem exists_import_of_base (index : ReferenceIndex) (source : Option String)
    (hd : (models.map Model.qualifiedName).Nodup) (hplan : PlannedIn models plan)
    (hm : plan.models[place]? = some m)
    (hm' : (plan.resolveWith index source plan.models).2[place]? = some m') (ht : t ∈ models)
    (hne : t.path ≠ plan.path) (href : t.qualifiedName ∈ m.references)
    (honly : plan.BaseOnly m m' t.qualifiedName) {i : RelativeImport}
    (hi : relative? plan.moduleName t.qualifiedName = some i) :
    ∃ j ∈ (plan.resolveWith index source plan.models).1.imports, j.source =
      some (Renaming.sourceOf (.ofPlan plan index source) t.qualifiedName i) ∧ j.name = i.name := by
  obtain ⟨runs, hruns, himports, hknown, htexts⟩ :=
    resolveWith_spec plan index source plan.models
  obtain ⟨m₁, hm₁, htypes⟩ := exists_getElem?_of_forall₂ htexts hm
  obtain rfl : m₁ = m' := Option.some.inj (hm₁.symm.trans hm')
  obtain ⟨run, hrun, rfl⟩ := List.mem_map.1 (hruns ▸ List.mem_of_getElem? hm)
  obtain ⟨⟨references, htracks⟩, hkept⟩ := hknown run hrun
  have hown : t.qualifiedName ∉ (UnitScope.ofPlan plan index source).ownNames := by
    intro hmem
    obtain ⟨own, hmine, hnames⟩ := List.mem_flatMap.1 hmem
    rcases List.mem_pair.1 hnames with he | he
    · exact honly.own own hmine he.symm
    · obtain ⟨hmodel, hpath⟩ := (hplan.mem_models hd).1 hmine
      have hsame : t = own := List.inj_on_of_nodup_map hd ht hmodel he
      exact hne (hsame ▸ hpath)
  have htarget : run.2.targets.lookup t.qualifiedName = none := by
    refine Option.eq_none_iff_forall_ne_some.2 fun ⟨full, j⟩ hj => ?_
    obtain ⟨u, hu, _, _, htext⟩ := htracks.target _ full j hj
    obtain ⟨hu, hmade⟩ := UnitScope.mem_foreign.1 hu
    obtain ⟨u', hu', hname, _⟩ := exists_of_mem_left htypes hu
    refine honly.text u' hu' ?_
    rw [hname, UnitScope.nameIn, if_neg (by simp [hmade])]
    exact htext
  have href' : t.qualifiedName ∈ run.2.references := hkept _ href fun u hu _ => honly.type u hu
  exact ⟨run.2.importOf (.ofPlan plan index source) t.qualifiedName i, (himports _).2
    ⟨run, hrun, .inr ⟨_, href', Renaming.importFor?_eq_some_iff.2
      ⟨hown, .inr ⟨htarget, i, hi, rfl⟩⟩⟩⟩, rfl, rfl⟩

/-- The import that is computed for a base class brings what the base's name begins with from the
topmost package exactly if the base lives at the top. -/
theorem binding_eq_top_iff (index : ReferenceIndex) (source : Option String)
    (hd : (models.map Model.qualifiedName).Nodup) (hplan : PlannedIn models plan)
    (hpath : Proper plan.path) (ht : t ∈ models) (hproper : Proper (t.path ++ [t.name]))
    (hne : t.path ≠ plan.path) {i : Import} (hname : i.name = (way plan.path t.path t.name).name)
    (hsource : i.source = some (Renaming.sourceOf (.ofPlan plan index source) t.qualifiedName
      (way plan.path t.path t.name))) :
    i.binding.2 =
        .imported (some plan.topSource) (Text.before "." t.qualifiedName) ↔
      t.path.length ≤ 1 ∧ (t.path <+: plan.path → t.path = []) := by
  have hhome : Proper t.path := fun s hs => hproper s (List.mem_append_left _ hs)
  have hbinding : i.binding.2 = .imported (some (Renaming.sourceOf (.ofPlan plan index source)
      t.qualifiedName (way plan.path t.path t.name))) (way plan.path t.path t.name).name := by
    rw [Import.binding, hsource, ← hname]
  have hfirst : some (Text.before "." t.qualifiedName) = (t.path ++ [t.name]).head? := by
    have hpieces : Text.pieces '.' t.qualifiedName = t.path ++ [t.name] := by
      rw [t.qualifiedName_eq_join]
      exact pieces_join (by simp) fun s hs => (hproper s hs).2
    obtain ⟨first, rest, hcons⟩ :=
      List.exists_cons_of_ne_nil (Text.pieces_ne_nil '.' t.qualifiedName)
    rw [Text.before_of_pieces hcons, ← hpieces, hcons, List.head?_cons]
  rw [hbinding, Meaning.imported.injEq, Option.some.injEq,
    sourceOf_eq_topSource_iff index source hd hplan hpath ht hproper hne]
  refine and_iff_left_of_imp fun ⟨hlength, habove⟩ => Option.some.inj ?_
  rw [hfirst, way_name_of_top t.name hhome hlength habove]

/-- **When a base class is reached.** Let a model of a unit have a model of another namespace for a
base class, by its qualified name. Whatever the references of the unit become, the name stands in
the header as it is. Read below the imports of the unit and the classes before, it leads to that
model if and only if no part of it has a dot and its first part is imported from the topmost package
under this name, and this import is the last to bind it. If the name is for a base class alone and
the model refers to it, the unit has an import for it; and this one is the one that is needed
exactly if the model lives in the root, or in a namespace of the root that the unit does not lie
below. -/
theorem bases_reached_iff (index : ReferenceIndex) (source : Option String) (global : Imports)
    (hd : (models.map Model.qualifiedName).Nodup) (hplan : PlannedIn models plan)
    (hm : plan.models[place]? = some m) (ht : t ∈ models) (hne : t.path ≠ plan.path)
    (hbase : t.qualifiedName ∈ m.bases) :
    let resolved := plan.resolveWith index source plan.models
    let imports := resolved.1.imports.insertAll (resolved.2.flatMap Source.classImports)
    let classes := (plan.models.take place).map Model.name
    let bindings := Bindings.below (Imports.emitted imports global) classes
    let first := Text.before "." t.qualifiedName
    ∃ m', resolved.2[place]? = some m' ∧
      (∃ rest, Source.classText m' =
        Text.join "\n" (("class " ++ m.name ++ "(" ++ Text.join ", " m.bases ++ "):") :: rest)) ∧
      (plan.evaluate? bindings t.qualifiedName = some (t.path ++ [t.name]) ↔
        (∀ s ∈ t.path ++ [t.name], '.' ∉ s.toList) ∧
          bindings.meaning? first = some (.imported (some plan.topSource) first)) ∧
      (Proper plan.path → Proper (t.path ++ [t.name]) → t.qualifiedName ∈ m.references →
        plan.BaseOnly m m' t.qualifiedName →
        ∃ i ∈ resolved.1.imports, ∃ from', i.source = some from' ∧
          (UnitScope.ofPlan plan index source).locate? t.qualifiedName = some (from', i.name) ∧
          (i.binding.2 = .imported (some plan.topSource) first ↔
            t.path.length ≤ 1 ∧ (t.path <+: plan.path → t.path = []))) := by
  intro resolved imports classes bindings first
  obtain ⟨m', hm', hname, hbases⟩ : ∃ m', resolved.2[place]? = some m' ∧ m'.name = m.name ∧
      m'.bases = m.bases := UnitNames.exists_resolved_of_place _ _ hm
  refine ⟨m', hm', ?_, evaluate?_qualifiedName_iff hne, fun hpath hproper href honly => ?_⟩
  · have hsome : m'.bases.isEmpty = false := by
      rw [hbases, List.isEmpty_eq_false_iff]
      exact List.ne_nil_of_mem hbase
    rw [Source.classText_eq_join, Source.frontLines, Source.basesText, hsome, hname, hbases]
    exact ⟨_, rfl⟩
  · have hway : relative? plan.moduleName t.qualifiedName =
        some (way plan.path t.path t.name) := by
      rw [UnitPlan.moduleName, relative?_qualifiedName hpath hproper, if_neg hne.symm]
    obtain ⟨i, hi, hsource, hlast⟩ :=
      exists_import_of_base index source hd hplan hm hm' ht hne href honly hway
    refine ⟨i, hi, _, hsource, ?_,
      binding_eq_top_iff index source hd hplan hpath ht hproper hne hlast hsource⟩
    exact hlast ▸ Option.map_eq_some_iff.2 ⟨_, hway, rfl⟩

end Units

/-- A model of `x` with a base class of another namespace. -/
def heirOf (base : Model) : Model where
  name := "Owner"
  bases := [base.qualifiedName]
  references := .ofList [base.qualifiedName]
  path := ["x"]

/-- The unit of the model. -/
def heirUnit (base : Model) : UnitPlan := ⟨["x.py"], ["x"], .leaf, [heirOf base]⟩

/-- A base class of a namespace of the root is reached by the import that is computed for it. -/
theorem bases_reached_at_top :
    let base : Model := { name := "Base", path := ["pets"] }
    let models := [base, heirOf base]
    let plan := heirUnit base
    let resolved := plan.resolveWith [] none plan.models
    let imports := resolved.1.imports.insertAll (resolved.2.flatMap Source.classImports)
    (models.map Model.qualifiedName).Nodup ∧ PlannedIn models plan ∧
      plan.models[0]? = some (heirOf base) ∧ base ∈ models ∧ base.path ≠ plan.path ∧
      base.qualifiedName ∈ (heirOf base).bases ∧
      imports.toList.map Import.text = ["from . import pets"] ∧
      (∃ m' rest, resolved.2[0]? = some m' ∧
        Source.classText m' = Text.join "\n" ("class Owner(pets.Base):" :: rest)) ∧
      plan.evaluate? (Bindings.below (Imports.emitted imports .empty) []) "pets.Base" =
        some ["pets", "Base"] ∧
      ∃ i ∈ resolved.1.imports, i.binding.2 = .imported (some ".") "pets" := by
  intro base models plan resolved imports
  have hd : (models.map Model.qualifiedName).Nodup := by decide
  have hplan : PlannedIn models plan := plannedIn_of_sorted 1 models plan.key rfl rfl
  have hm : plan.models[0]? = some (heirOf base) := rfl
  have hbase : base ∈ models := List.mem_cons_self
  have hne : base.path ≠ plan.path := by decide
  have hmem : base.qualifiedName ∈ (heirOf base).bases := by decide
  obtain ⟨m', hm', ⟨rest, htext⟩, hreached, himported⟩ :=
    bases_reached_iff [] none .empty hd hplan hm hbase hne hmem
  have honly : plan.BaseOnly (heirOf base) m' base.qualifiedName := by
    cases hm'
    exact ⟨by decide, by decide, by decide⟩
  obtain ⟨i, hi, _, _, _, htop⟩ := himported (by decide) (by decide) (by decide) honly
  have hbinding := htop.2 (by decide)
  have hsource : plan.topSource = "." := by decide
  have hfirst : Text.before "." base.qualifiedName = "pets" := by decide
  rw [hsource, hfirst] at hbinding
  exact ⟨hd, hplan, hm, hbase, hne, hmem, by decide, ⟨m', rest, hm', htext⟩,
    hreached.2 ⟨by decide, by decide⟩, i, hi, hbinding⟩

/-- A base class of `b.pets` is imported by its last segments, and the header begins with `b`. -/
theorem bases_not_reached_below_top :
    let base : Model := { name := "Base", path := ["b", "pets"] }
    let models := [base, heirOf base]
    let plan := heirUnit base
    let resolved := plan.resolveWith [] none plan.models
    let imports := resolved.1.imports.insertAll (resolved.2.flatMap Source.classImports)
    (models.map Model.qualifiedName).Nodup ∧ PlannedIn models plan ∧
      base.qualifiedName ∈ (heirOf base).bases ∧ base.qualifiedName ∈ (heirOf base).references ∧
      imports.toList.map Import.text = ["from .b import pets"] ∧
      resolved.2.map Source.classText = ["class Owner(b.pets.Base):\n    pass"] ∧
      plan.evaluate? (Bindings.below (Imports.emitted imports .empty) []) "b.pets.Base" = none := by
  intro base models plan resolved imports
  have hplan : PlannedIn models plan := plannedIn_of_sorted 1 models plan.key rfl rfl
  exact ⟨by decide, hplan, by decide, by decide, by decide, by decide,
    by decide⟩

end Bindery
