import Bindery.Proofs.Assembly.DefinitionOrder
import Bindery.Proofs.Assembly.Scope
import Bindery.Proofs.Source.Uses

/-! The names that the classes of a unit rely on.

The text of a class uses a few names that are not its own (`Source.Uses`), and the unit imports
each of them from an absolute module (`mem_classImports`). What is imported for references comes
from modules that are named by leading dots (`relative_of_mem_imports`); these are listed before
all absolute ones, so such an import never has the last word. The classes of the unit come later
still, and nothing keeps them from the names. So the names mean what they should exactly when no
class has one of them above a class that uses it, and what the models bring and what is imported
everywhere leaves them alone (`support_meant_iff`). -/
namespace Bindery

namespace Source

theorem Uses.binding {m : Model} {i : Import} (h : Uses m i) :
    i.binding = (i.name, .imported i.source i.name) := by
  cases h <;> rfl

end Source

/-! ### Relative imports -/

/-- An import from a module that is named by leading dots. -/
def Import.Relative (i : Import) : Prop :=
  ∃ source, i.source = some source ∧ source.toList.head? = some '.'

theorem RelativeImport.head?_way_source (here there : List String) (leaf : String) :
    (way here there leaf).source.toList.head? = some '.' := by
  have hdots : ∀ count rest,
      (Text.replicate (max count 1) "." ++ rest).toList.head? = some '.' := by
    intro count rest
    obtain ⟨more, hmore⟩ : ∃ more, max count 1 = more + 1 := ⟨max count 1 - 1, by omega⟩
    have hreplicate := Text.toList_replicate (max count 1) '.'
    rw [hmore, List.replicate_succ] at hreplicate
    rw [hmore, String.toList_append, show ("." : String) = String.singleton '.' from rfl,
      hreplicate]
    rfl
  rw [way]
  split
  · simpa using hdots _ ""
  · split
    · exact hdots _ _
    · simpa using hdots _ ""

theorem head?_relative?_source {current name : String} {i : RelativeImport}
    (h : relative? current name = some i) : i.source.toList.head? = some '.' := by
  rw [relative?_eq] at h
  split at h
  · cases h
  · cases h
    exact RelativeImport.head?_way_source _ _ _

theorem Renaming.head?_sourceOf (scope : UnitScope) (target : String) {i : RelativeImport}
    (h : i.source.toList.head? = some '.') :
    (sourceOf scope target i).toList.head? = some '.' := by
  rw [sourceOf]
  split
  · cases hpackage : relativeFromPackage? scope.moduleName target with
    | none => exact h
    | some j =>
      rw [relativeFromPackage?] at hpackage
      split at hpackage
      · cases hpackage
      · exact head?_relative?_source hpackage
  · exact h

/-- A unit imports what its models bring, and otherwise only from modules named by dots. -/
theorem relative_of_mem_imports {plan : UnitPlan} {index : ReferenceIndex}
    {source : Option String} {order : List Model} {i : Import}
    (h : i ∈ (plan.resolveWith index source order).1.imports) :
    i ∈ order.flatMap Model.imports ∨ i.Relative := by
  obtain ⟨runs, rfl, himports, hknown, _⟩ := resolveWith_spec plan index source order
  obtain ⟨run, hrun, hgiven | ⟨x, _, hi⟩⟩ := (himports i).1 h
  · exact .inl (List.mem_flatMap.2 ⟨run.1, List.mem_map_of_mem hrun, hgiven⟩)
  · obtain ⟨⟨references, htracks⟩, _⟩ := hknown run hrun
    refine .inr ?_
    obtain ⟨_, ⟨target, j, htarget, rfl⟩ | ⟨_, j, hj, rfl⟩⟩ :=
      Renaming.importFor?_eq_some_iff.1 hi
    · obtain ⟨_, _, _, hreach, _⟩ := htracks.target x target j htarget
      exact ⟨_, rfl, Renaming.head?_sourceOf _ _
        (head?_relative?_source (UnitScope.reach?_eq_some_iff.1 hreach).2)⟩
    · exact ⟨_, rfl, Renaming.head?_sourceOf _ _ (head?_relative?_source hj)⟩

theorem mem_imports_of_given {plan : UnitPlan} {index : ReferenceIndex}
    {source : Option String} {order : List Model} {i : Import}
    (h : i ∈ order.flatMap Model.imports) :
    i ∈ (plan.resolveWith index source order).1.imports := by
  obtain ⟨runs, rfl, himports, _⟩ := resolveWith_spec plan index source order
  obtain ⟨m, hm, hi⟩ := List.mem_flatMap.1 h
  obtain ⟨run, hrun, rfl⟩ := List.mem_map.1 hm
  exact (himports i).2 ⟨run, hrun, .inl hi⟩

/-- The sources of an import decide first. -/
theorem Import.compare_of_source_lt {i j : Import} {s t : String} (hi : i.source = some s)
    (hj : j.source = some t) (h : s < t) : compare i j = .lt := by
  have hcompare : compare (some s) (some t) = .lt := by
    show compareOfLessAndEq s t = .lt
    exact compareOfLessAndEq_eq_lt.2 h
  simp [compare_def, compareLex, compareOn, hi, hj, hcompare]

/-- A relative import stands before what a class uses. -/
theorem Import.Relative.compare_of_uses {i j : Import} (hi : i.Relative) {m : Model}
    (hj : Source.Uses m j) : compare i j = .lt := by
  obtain ⟨s, hs, hhead⟩ := hi
  obtain ⟨rest, hchars⟩ : ∃ rest, s.toList = '.' :: rest := List.head?_eq_some_iff.1 hhead
  have hbelow : ∀ (c : Char) (cs : List Char), '.' < c → s < String.ofList (c :: cs) := by
    intro c cs hc
    rw [String.lt_iff, hchars, String.toList_ofList]
    exact List.Lex.rel hc
  cases hj with
  | model => exact compare_of_source_lt hs rfl (hbelow 'p' "ydantic".toList (by decide))
  | enum => exact compare_of_source_lt hs rfl (hbelow 'e' "num".toList (by decide))
  | optional => exact compare_of_source_lt hs rfl (hbelow 't' "yping".toList (by decide))
  | field => exact compare_of_source_lt hs rfl (hbelow 'p' "ydantic".toList (by decide))

/-! ### A unit -/

/-- Below imports and the classes before it, whatever a class uses means what is imported for
it. -/
def SupportMeant (own global : Imports) (written : List Model) : Prop :=
  ∀ before m after, written = before ++ m :: after → ∀ i, Source.Uses m i →
    (Bindings.below (own.emitted global) (before.map Model.name)).meaning? i.name =
      some (.imported i.source i.name)

/-- A relation between what stands before and what stands behind, by the places of the latter. -/
theorem forall_split_iff_pairwise {α : Type} {R : α → α → Prop} {xs : List α} :
    (∀ before x after, xs = before ++ x :: after → ∀ y ∈ before, R y x) ↔ xs.Pairwise R := by
  constructor
  · intro h
    induction xs using List.reverseRecOn with
    | nil => exact .nil
    | append_singleton xs last ih =>
      refine List.pairwise_append.2 ⟨ih fun before x after hsplit => ?_,
        List.pairwise_singleton R last, fun y hy x hx => ?_⟩
      · exact h before x (after ++ [last]) (by simp [hsplit])
      · exact List.mem_singleton.1 hx ▸ h xs last [] rfl y hy
  · rintro h before x after rfl y hy
    exact (List.pairwise_append.1 h).2.2 y hy x List.mem_cons_self

namespace Assembler
variable {ε : Type} {a : Assembler ε} {models written : List Model} {deferred : List String}
  {plan : UnitPlan} {output : AssemblyOutput}

def unitImports (a : Assembler ε) (plan : UnitPlan) (written : List Model) : Imports :=
  (a.resolved plan).1.imports.insertAll (written.flatMap Source.classImports)

/-- The imports of a unit apart from those for references. -/
def plainImports (plan : UnitPlan) (written : List Model) : Imports :=
  .ofList (plan.models.flatMap Model.imports ++ written.flatMap Source.classImports)

/-- A planned unit that has a text is written. -/
theorem exists_writes_of_text {sorted : List Model} {text : String}
    (hrun : (a.assemble models).toOption.bind (fun done => done.2.text? plan.key) = some text)
    (hsort : (sortModels a.passes (a.prepared models)).map (fun p => Entries.values p.models) =
      .ok sorted)
    (hplan : (plan.key, Slot.planned plan) ∈ Partition.ofModels sorted) :
    ∃ stats output, a.assemble models = .ok (stats, output) ∧ output.text? plan.key = some text ∧
      ∃ written deferred, a.Writes models output plan written deferred := by
  cases hassemble : a.assemble models with
  | error e => simp [hassemble, Except.toOption] at hrun
  | ok done =>
    obtain ⟨stats, output⟩ := done
    cases hplaced : sortModels a.passes (a.prepared models) with
    | error e => simp [hplaced, Except.map] at hsort
    | ok placed =>
      rw [hplaced, Except.map, Except.ok.injEq] at hsort
      rw [hassemble] at hrun
      subst hsort
      obtain ⟨written, hwrites, _⟩ := exists_writes hassemble hplaced hplan
      exact ⟨stats, output, rfl, hrun, written, _, hwrites⟩

/-- For what a class uses, the imports for references count for nothing. -/
theorem meaning?_unitImports (a : Assembler ε) (plan : UnitPlan) {m : Model} (hm : m ∈ written)
    {i : Import} (hi : Source.Uses m i) (global : Imports) (classes : List String) :
    (Bindings.below ((a.unitImports plan written).emitted global) classes).meaning? i.name =
      (Bindings.below ((plainImports plan written).emitted global) classes).meaning? i.name := by
  have hneeded : i ∈ written.flatMap Source.classImports :=
    List.mem_flatMap.2 ⟨m, hm, Source.mem_classImports.2 hi⟩
  have hfuture : i.source ≠ some Imports.futureModule := by cases hi <;> decide
  have hname : i.binding.1 = i.name := congrArg Prod.fst hi.binding
  rw [← hname]
  refine Imports.meaning?_emitted_congr ?_ ?_ hfuture (fun j hj => ?_) global classes
  · exact SortedSet.mem_insertAll.2 (.inl hneeded)
  · exact SortedSet.mem_ofList.2 (List.mem_append_right _ hneeded)
  · rw [unitImports, plainImports, SortedSet.mem_insertAll, SortedSet.mem_ofList, List.mem_append,
      or_comm]
    refine or_congr_left ⟨fun hj' => (relative_of_mem_imports hj').resolve_right ?_,
      mem_imports_of_given⟩
    exact fun hrelative => Std.OrientedCmp.not_lt_of_lt hj (hrelative.compare_of_uses hi)

/-- Where a class uses a name, it means what is imported for it if no class above has the name and
nothing else that is imported plainly takes it. -/
theorem meant_iff (a : Assembler ε) (plan : UnitPlan) {m : Model} (hm : m ∈ written) {i : Import}
    (hi : Source.Uses m i) (global : Imports) (classes : List String) :
    (Bindings.below ((a.unitImports plan written).emitted global) classes).meaning? i.name =
        some (.imported i.source i.name) ↔
      i.name ∉ classes ∧ (Bindings.below ((plainImports plan written).emitted global) []).meaning?
        i.name = some (.imported i.source i.name) := by
  rw [meaning?_unitImports a plan hm hi, Bindings.meaning?_below, Bindings.meaning?_below]
  by_cases hclass : i.name ∈ classes <;> simp [hclass]

/-- **When the names that classes rely on are their own.** A unit that is written as classes below
its imports has the text of its import sections and its classes. What a class uses means what is
imported for it, in every class of the unit, if and only if no class stands above one that uses its
name, and among the imports that models bring, those that classes need and the global ones none
takes such a name for something else. What is imported for references has no part in it. -/
theorem support_meant_iff (hrenderer : a.renderer = .classes)
    (himports : a.options.withImports = true)
    (hwrites : a.Writes models output plan written deferred) :
    (∃ text updates, output.text? plan.key = some text ∧
      a.formatText (Text.join "\n" (importSections (a.unitImports plan written)
        a.options.globalImports ++ [Text.join "\n\n\n" (written.map Source.classText)] ++
        updates)) = .ok text) ∧
    (SupportMeant (a.unitImports plan written) a.options.globalImports written ↔
      (written.Pairwise fun m later => ∀ i, Source.Uses later i → i.name ≠ m.name) ∧
      ∀ m ∈ written, ∀ i, Source.Uses m i →
        (Bindings.below ((plainImports plan written).emitted a.options.globalImports) []).meaning?
          i.name = some (.imported i.source i.name)) := by
  constructor
  · obtain ⟨text, hfound, htext⟩ := hwrites.text
    rw [hrenderer, unitText, himports, hrenderer] at htext
    exact ⟨text, _, hfound, htext⟩
  · rw [← forall_split_iff_pairwise]
    constructor
    · intro h
      refine ⟨fun before m after hsplit earlier hearlier i hi he => ?_, fun m hm i hi => ?_⟩
      · have hmeant := (meant_iff a plan (by simp [hsplit]) hi _ _).1 (h before m after hsplit i hi)
        exact hmeant.1 (he ▸ List.mem_map_of_mem hearlier)
      · obtain ⟨before, after, hsplit⟩ := List.append_of_mem hm
        exact ((meant_iff a plan hm hi _ _).1 (h before m after hsplit i hi)).2
    · rintro ⟨hfree, hplain⟩ before m after hsplit i hi
      have hm : m ∈ written := by simp [hsplit]
      refine (meant_iff a plan hm hi _ _).2 ⟨fun hmem => ?_, hplain m hm i hi⟩
      obtain ⟨earlier, hearlier, he⟩ := List.mem_map.1 hmem
      exact hfree before m after hsplit earlier hearlier i hi he.symm

end Assembler

/-- A class of some namespace with a field that has another name in the data, and so needs
`Field`. -/
def petModel (path : List String) (references : List String) : Model where
  name := "Pet"
  fields :=
    [{ name := "name", wireAlias := some "pet-name", type := { name := "str" }, required := true }]
  path := path
  references := .ofList references

/-- A class of the root namespace that is called `Field`. -/
def fieldModel : Model where
  name := "Field"
  fields := [{ name := "id", type := { name := "int" }, required := true }]

/-- A unit that imports a class `Field` from the root namespace, and after it the `Field` that its
class uses. -/
theorem support_meant_below_import :
    let a : Assembler Empty := {}
    let models : List Model := [fieldModel, petModel ["x"] ["Field"]]
    let plan : UnitPlan := ⟨["x.py"], ["x"], .leaf, [petModel ["x"] ["Field"]]⟩
    let text := "from . import Field\nfrom pydantic import BaseModel, Field" ++
      "\n\n\n\nclass Pet(BaseModel):\n    name: str = Field(..., alias='pet-name')"
    a.renderer = .classes ∧ a.options.withImports = true ∧
      ∃ stats output, a.assemble models = .ok (stats, output) ∧
        output.text? plan.key = some text ∧
        ∃ written deferred, a.Writes models output plan written deferred ∧
          SupportMeant (a.unitImports plan written) a.options.globalImports written := by
  intro a models plan text
  have hdone : (a.assemble models).toOption.bind (fun done => done.2.text? plan.key) =
      some text := by decide
  have hplan : (plan.key, Slot.planned plan) ∈ Partition.ofModels models :=
    List.mem_of_getElem? (show (Partition.ofModels models)[1]? = _ from rfl)
  obtain ⟨stats, output, hrun, htext, written, deferred, hwrites⟩ :=
    Assembler.exists_writes_of_text hdone rfl hplan
  refine ⟨rfl, rfl, stats, output, hrun, htext, written, deferred, hwrites, ?_⟩
  obtain ⟨count, hcollapse⟩ := hwrites.collapsed
  cases hcollapse
  refine (Assembler.support_meant_iff rfl rfl hwrites).2.2 ⟨?_, ?_⟩
  · simp only [← Source.mem_classImports]
    decide
  · simp only [← Source.mem_classImports]
    decide

/-- Below a class `Field` of its own unit, a class that needs the other `Field` gets this one. -/
theorem support_not_meant_below_field :
    let a : Assembler Empty := {}
    let models : List Model := [fieldModel, petModel [] []]
    let plan : UnitPlan := ⟨UnitKey.root, [], .rootInit, models⟩
    let text := "from pydantic import BaseModel, Field" ++
      "\n\n\n\nclass Field(BaseModel):\n    id: int" ++
      "\n\n\nclass Pet(BaseModel):\n    name: str = Field(..., alias='pet-name')"
    ∃ stats output, a.assemble models = .ok (stats, output) ∧
      output.text? plan.key = some text ∧
      ∃ written deferred, a.Writes models output plan written deferred ∧
        ¬ SupportMeant (a.unitImports plan written) a.options.globalImports written := by
  intro a models plan text
  have hdone : (a.assemble models).toOption.bind (fun done => done.2.text? plan.key) =
      some text := by decide +kernel
  have hplan : (plan.key, Slot.planned plan) ∈ Partition.ofModels models :=
    List.mem_of_getElem? (show (Partition.ofModels models)[0]? = _ from rfl)
  obtain ⟨stats, output, hrun, htext, written, deferred, hwrites⟩ :=
    Assembler.exists_writes_of_text hdone rfl hplan
  refine ⟨stats, output, hrun, htext, written, deferred, hwrites, fun hmeant => ?_⟩
  obtain ⟨count, hcollapse⟩ := hwrites.collapsed
  cases hcollapse
  have huses : Source.Uses (petModel [] []) ⟨some "pydantic", "Field", none⟩ :=
    .field _ rfl List.mem_cons_self rfl
  have hfield := hmeant [fieldModel] (petModel [] []) [] rfl _ huses
  exact absurd hfield (by decide)

end Bindery
