import Mathlib.Data.List.Forall2
import Bindery.Proofs.Model.FieldRules

/-! Names in the data, when fields are put into snake case.

A field whose name changes has its old name in the data from then on. That is what it was called
there before if it had no other name; a name of its own is lost (`wire_names_not_kept_of_alias`).
So a field keeps its name in the data exactly if its own name does not change, or is the name in
the data already (`wire_names_kept_iff`). -/
namespace Bindery

namespace Field
variable {f : Field}

/-- In snake case the name in the data stays, or is the name that the field had. -/
theorem wireName_inSnakeCase (f : Field) :
    f.inSnakeCase.wireName = if Text.snakeCase f.name = f.name then f.wireName else f.name := by
  rw [inSnakeCase]
  split <;> rfl

/-- A field is called in the data as in the class if it has no other name, or the same again. -/
theorem name_eq_wireName_iff :
    f.name = f.wireName ↔ f.wireAlias = none ∨ f.wireAlias = some f.name := by
  rw [wireName]
  cases f.wireAlias with
  | none => simp
  | some wire => simp [eq_comm]

theorem wireName_inSnakeCase_eq_iff :
    f.inSnakeCase.wireName = f.wireName ↔
      f.wireAlias = none ∨ f.wireAlias = some f.name ∨ Text.snakeCase f.name = f.name := by
  rw [wireName_inSnakeCase, ← or_assoc, ← name_eq_wireName_iff]
  split
  · next hsame => simp [hsame]
  · next hchanged => simp [hchanged]

end Field

theorem FieldRule.wireName_effects_forSwitches (strip : Bool) (f : Field) :
    (effects (Collector.forSwitches true strip).rules f).wireName = f.inSnakeCase.wireName := by
  rw [effects_forSwitches, if_pos rfl, Field.wireName, Field.wireName]

/-- **When a field keeps its name in the data.** With fields in snake case, and defaults of `None`
left out or not, a registered model has a field for each one that it had. The field has the same
name in the data as before if and only if it had no other name there, or its own name once more, or
if its name does not change; otherwise its old name has become its name in the data. -/
theorem wire_names_kept_iff (strip : Bool) (models : List Model) :
    List.Forall₂ (fun m m' => List.Forall₂ (fun f f' =>
        (f'.wireName = f.wireName ↔
          f.wireAlias = none ∨ f.wireAlias = some f.name ∨ Text.snakeCase f.name = f.name) ∧
        (f'.wireName ≠ f.wireName → f'.wireName = f.name)) m.fields m'.fields)
      models ((Collector.forSwitches true strip).registerAll models).models := by
  rw [Collector.models_forSwitches, List.forall₂_map_right_iff, List.forall₂_same]
  intro m _
  rw [Collector.prepare, List.forall₂_map_right_iff, List.forall₂_same]
  intro f _
  rw [FieldRule.wireName_effects_forSwitches, Field.wireName_inSnakeCase_eq_iff]
  refine ⟨Iff.rfl, fun hchanged => ?_⟩
  rw [Field.wireName_inSnakeCase] at hchanged ⊢
  split
  · next hsame => exact absurd (if_pos hsame) hchanged
  · rfl

/-- A field called `pet-name` in the data is called `petName` there when its name is put into
snake case. -/
theorem wire_names_not_kept_of_alias :
    let f : Field := { name := "petName", wireAlias := some "pet-name", type := { name := "str" } }
    let m : Model := { name := "Pet", fields := [f] }
    m.kind = .composite ∧ f.wireName = "pet-name" ∧
      ((Collector.forSwitches true false).register m).models.map
          (fun m' => m'.fields.map fun f' => (f'.name, f'.wireName)) =
        [[("pet_name", "petName")]] := by
  decide

end Bindery
