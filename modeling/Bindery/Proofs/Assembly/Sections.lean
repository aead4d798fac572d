import Bindery.Proofs.Assembly.Run
import Bindery.Proofs.Assembly.Scope
import Bindery.Proofs.Model.Statements

/-! The import sections of a unit.

A unit has imports of its own, for its references and its classes, and imports that every unit has.
The text begins with both in three parts (`Imports.Parted`): what comes from the future module, the
other imports of the unit, and the other global ones. None is lost on the way and none is made up
(`Parted.mem_append_iff`), and nothing from the future module stands below anything else
(`Parted.pairwise`). Each part is there statement by statement, in one section or another
(`imports_rendered`). -/
namespace Bindery

namespace Imports

/-- Imports of a unit and global imports in three parts. -/
structure Parted (own global future rest others : Imports) : Prop where
  mem_future : ∀ i, i ∈ future ↔ (i ∈ own ∨ i ∈ global) ∧ i.source = some futureModule
  mem_rest : ∀ i, i ∈ rest ↔ i ∈ own ∧ i.source ≠ some futureModule
  mem_others : ∀ i, i ∈ others ↔ i ∈ global ∧ i.source ≠ some futureModule

section Parts
variable {own global future rest others : Imports}

/-- The parts have every import, and no other. -/
theorem Parted.mem_append_iff (h : Parted own global future rest others) (i : Import) :
    i ∈ future.toList ++ rest.toList ++ others.toList ↔ i ∈ own ∨ i ∈ global := by
  simp only [List.mem_append, SortedSet.mem_toList, h.mem_future, h.mem_rest, h.mem_others]
  by_cases hsource : i.source = some futureModule <;> simp [hsource]

/-- What comes from the future module stands above everything else. -/
theorem Parted.pairwise (h : Parted own global future rest others) :
    (future.toList ++ rest.toList ++ others.toList).Pairwise fun i j =>
      j.source = some futureModule → i.source = some futureModule := by
  rw [List.append_assoc, List.pairwise_append]
  have hfuture : ∀ i ∈ future.toList, i.source = some futureModule :=
    fun i hi => ((h.mem_future i).1 hi).2
  have hnone : ∀ j ∈ rest.toList ++ others.toList, j.source ≠ some futureModule := by
    intro j hj
    rcases List.mem_append.1 hj with hj | hj
    · exact ((h.mem_rest j).1 hj).2
    · exact ((h.mem_others j).1 hj).2
  refine ⟨List.pairwise_of_forall_mem_list fun i hi _ _ _ => hfuture i hi,
    List.pairwise_of_forall_mem_list fun i _ j hj hsource => absurd hsource (hnone j hj),
    fun i hi j _ _ => hfuture i hi⟩

end Parts

/-! ### Their text -/

/-- Statements leave something in the text. -/
theorem join_ne_empty {lines : List String} (h : "" ∉ lines) (hne : lines ≠ []) :
    Text.join "\n" lines ≠ "" := by
  intro hempty
  obtain ⟨line, more, rfl⟩ := List.exists_cons_of_ne_nil hne
  have hchars := congrArg String.toList hempty
  rw [Text.toList_join_cons] at hchars
  have hline : line = "" := String.toList_inj.1 (List.append_eq_nil_iff.1 hchars).1
  exact h (hline ▸ List.mem_cons_self)

/-- A part with nothing in it leaves no trace, two others stand one below the other. -/
theorem join_sections {lines lines' : List String} (h : "" ∉ lines) (h' : "" ∉ lines') :
    Text.join "\n" ([Text.join "\n" lines, Text.join "\n" lines'].filter (· ≠ "")) =
      Text.join "\n" (lines ++ lines') := by
  have hnone : Text.join "\n" [] = "" := rfl
  have hone : ∀ text, Text.join "\n" [text] = text := fun _ => rfl
  have htwo : ∀ text text', Text.join "\n" [text, text'] = text ++ "\n" ++ text' := fun _ _ => rfl
  by_cases hnil : lines = []
  · by_cases hnil' : lines' = []
    · simp [hnil, hnil', hnone]
    · simp [hnil, hnone, join_ne_empty h' hnil', hone]
  · by_cases hnil' : lines' = []
    · simp [hnil', hnone, join_ne_empty h hnil, hone]
    · simp [join_ne_empty h hnil, join_ne_empty h' hnil', htwo, Text.join_append "\n" hnil hnil']

/-- The import sections are the statements of the three parts. -/
theorem exists_parted (own global : Imports) : ∃ future rest others,
    Parted own global future rest others ∧
      importSections own global =
        [Text.join "\n" (future.lines ++ rest.lines), Text.join "\n" others.lines, "\n"] := by
  refine ⟨(own.takeModule futureModule).1.insertAll (global.takeModule futureModule).1.toList,
    (own.takeModule futureModule).2, (global.takeModule futureModule).2, ⟨?_, ?_, ?_⟩, ?_⟩
  · intro i
    rw [SortedSet.mem_insertAll, SortedSet.mem_toList, mem_takeModule_fst, mem_takeModule_fst,
      ← or_and_right, or_comm]
  · exact fun i => mem_takeModule_snd
  · exact fun i => mem_takeModule_snd
  · rw [← join_sections (shows_lines _).ne_empty (shows_lines _).ne_empty, ← text_eq_join,
      ← text_eq_join, ← text_eq_join]
    rfl

end Imports

namespace Assembler
variable {ε : Type} {a : Assembler ε} {requireUpdate : List String} {s s' : Stats} {plan : UnitPlan}
  {unit : GeneratedUnit}

/-- **What the import sections of a unit show.** Let a unit be assembled with its imports. Its text
begins with the statements of what its own imports and the global ones have from the future module,
and directly below with those of its other imports; the statements of the other global imports are
the next section. So each import of the unit and each global one is shown, no other is, and nothing
from the future module stands below an import from elsewhere. -/
theorem imports_rendered (himports : a.options.withImports = true)
    (h : a.assembleUnit requireUpdate s plan = .ok (s', unit)) :
    ∃ written count, a.collapse (a.resolved plan).2 = .ok (written, count) ∧
      let own := (a.resolved plan).1.imports.insertAll (written.flatMap a.renderer.imports)
      let global := a.options.globalImports
      ∃ future rest others, Imports.Parted own global future rest others ∧
        (∃ lines lines' lines'', Imports.Shows lines future.toList ∧
          Imports.Shows lines' rest.toList ∧ Imports.Shows lines'' others.toList ∧
          a.formatText (Text.join "\n" ([Text.join "\n" (lines ++ lines'), Text.join "\n" lines'',
            "\n", Text.join "\n\n\n" (written.map a.renderer.body)] ++ a.deferred.elim []
              fun write => ["\n", write (deferredNames requireUpdate plan.models)])) =
            .ok unit.body) ∧
        (∀ i, i ∈ future.toList ++ rest.toList ++ others.toList ↔ i ∈ own ∨ i ∈ global) ∧
        (future.toList ++ rest.toList ++ others.toList).Pairwise fun i j =>
          j.source = some Imports.futureModule → i.source = some Imports.futureModule := by
  obtain ⟨written, count, hcollapse, htext, _⟩ := assembleUnit_eq_ok h
  refine ⟨written, count, hcollapse, ?_⟩
  intro own global
  obtain ⟨future, rest, others, hparted, hsections⟩ := Imports.exists_parted own global
  refine ⟨future, rest, others, hparted, ⟨future.lines, rest.lines, others.lines,
    future.shows_lines, rest.shows_lines, others.shows_lines, ?_⟩, hparted.mem_append_iff,
    hparted.pairwise⟩
  rw [← htext, unitText, if_pos himports, hsections]
  cases a.deferred <;> rfl

/-- A class that has an import from the future module. -/
def petPlan : UnitPlan :=
  let field : Field :=
    { name := "pet_name", wireAlias := some "petName", type := { name := "str" }, required := true }
  let division : Import := { source := some "__future__", name := "division" }
  ⟨UnitKey.root, [], .rootInit, [{ name := "Pet", fields := [field], imports := [division] }]⟩

/-- Two global imports, one of them from the future module. -/
def petAssembler : Assembler Empty where
  options := {
    globalImports := .ofList [{ name := "os" },
      { source := some "__future__", name := "annotations" }] }

theorem imports_rendered_of_pet :
    petAssembler.options.withImports = true ∧
      ∃ s' unit, petAssembler.assembleUnit [] {} petPlan = .ok (s', unit) ∧
    ∃ written count,
      petAssembler.collapse (petAssembler.resolved petPlan).2 = .ok (written, count) ∧
      let own := (petAssembler.resolved petPlan).1.imports.insertAll
        (written.flatMap petAssembler.renderer.imports)
      let global := petAssembler.options.globalImports
      ∃ future rest others, Imports.Parted own global future rest others ∧
        (∃ lines lines' lines'', Imports.Shows lines future.toList ∧
          Imports.Shows lines' rest.toList ∧ Imports.Shows lines'' others.toList ∧
          petAssembler.formatText (Text.join "\n" ([Text.join "\n" (lines ++ lines'),
            Text.join "\n" lines'', "\n",
            Text.join "\n\n\n" (written.map petAssembler.renderer.body)] ++
              petAssembler.deferred.elim [] fun write =>
                ["\n", write (deferredNames [] petPlan.models)])) = .ok unit.body) ∧
        (∀ i, i ∈ future.toList ++ rest.toList ++ others.toList ↔ i ∈ own ∨ i ∈ global) ∧
        (future.toList ++ rest.toList ++ others.toList).Pairwise fun i j =>
          j.source = some Imports.futureModule → i.source = some Imports.futureModule := by
  have hdone : (petAssembler.assembleUnit [] {} petPlan).toOption.isSome = true := by
    decide
  cases hrun : petAssembler.assembleUnit [] {} petPlan with
  | error cause => simp [hrun, Except.toOption] at hdone
  | ok done =>
    obtain ⟨s', unit⟩ := done
    exact ⟨rfl, s', unit, rfl, imports_rendered rfl hrun⟩

example : (petAssembler.assembleUnit [] {} petPlan).toOption.map (·.2.body) =
    some ("from __future__ import annotations, division\n" ++
      "from pydantic import BaseModel, Field\nimport os\n\n\n" ++
      "class Pet(BaseModel):\n    pet_name: str = Field(..., alias='petName')") := by
  decide +kernel

end Assembler

end Bindery
