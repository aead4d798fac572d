import Bindery.Proofs.Model.FieldRules
import Bindery.Proofs.Text.Codes
import Bindery.Source.ClassText

/-! Values of the members of enumerations.

A member is written with its default for a value, and with its own name if it has none. Putting
fields into snake case changes the name and so the value, although the old name is kept for the
data (`member_values_not_kept_of_capital`); a member keeps its value exactly if it has a default or
its name does not change (`member_values_kept_iff`). -/
namespace Bindery

namespace Source

/-- What a member of an enumeration is assigned. -/
def memberValue (f : Field) : String := (f.default.map literal).getD (quoted f.name)

theorem memberLine_eq (f : Field) : memberLine f = f.name ++ " = " ++ memberValue f := rfl

theorem quoted_inj {s t : String} : quoted s = quoted t ↔ s = t := by
  refine ⟨fun h => ?_, congrArg quoted⟩
  have hchars : quotedChars s ++ [] = quotedChars t ++ [] := by
    rw [← toList_quoted, ← toList_quoted, h]
  exact (quotedChars_cancel hchars).1

theorem memberValue_inSnakeCase_eq_iff (f : Field) :
    memberValue f.inSnakeCase = memberValue f ↔
      f.default ≠ none ∨ Text.snakeCase f.name = f.name := by
  unfold Field.inSnakeCase memberValue
  split
  · next hsame => simp [hsame]
  · next hchanged =>
    cases hdefault : f.default with
    | none => simp [quoted_inj, hchanged]
    | some v => simp

end Source

open Source

section Prepared
variable {snakeCaseFields stripDefaultNone : Bool} {m : Model}

/-- The line of a member does not tell whether defaults of `None` are left out. -/
theorem FieldRule.memberLine_effects_forSwitches (strip : Bool) (f : Field) :
    memberLine (effects (Collector.forSwitches true strip).rules f) = memberLine f.inSnakeCase ∧
      memberLine (effects (Collector.forSwitches false strip).rules f) = memberLine f := by
  rw [effects_forSwitches, effects_forSwitches, if_pos rfl, if_neg Bool.false_ne_true]
  constructor <;> rw [memberLine, memberLine]

/-- The body of an enumeration that was registered has a line for each of its fields. -/
theorem Collector.bodyLines_prepare (c : Collector) (hkind : m.kind = .enumeration) :
    bodyLines (c.prepare m) = m.fields.map fun f => memberLine (FieldRule.effects c.rules f) := by
  have hkind' : (c.prepare m).kind = .enumeration := hkind
  rw [bodyLines, hkind']
  exact List.map_map

end Prepared

/-- **When a member keeps its value.** Let an enumeration be registered as one of some models, once
with fields put into snake case and once without. In both texts each member has its line, in which
a value is assigned to its name. The two values are the same if and only if the member has a default
or its name is the same in snake case. -/
theorem member_values_kept_iff (strip : Bool) (models : List Model) {place : Nat} {m : Model}
    (hm : models[place]? = some m) (hkind : m.kind = .enumeration) {i : Nat} {f : Field}
    (hf : m.fields[i]? = some f) :
    ∃ snake plain value value',
      ((Collector.forSwitches true strip).registerAll models).models[place]? = some snake ∧
      ((Collector.forSwitches false strip).registerAll models).models[place]? = some plain ∧
      (bodyLines snake)[i]? = some (Text.snakeCase f.name ++ " = " ++ value) ∧
      (bodyLines plain)[i]? = some (f.name ++ " = " ++ value') ∧
      (value = value' ↔ f.default ≠ none ∨ Text.snakeCase f.name = f.name) := by
  obtain ⟨hsnake, hplain⟩ := FieldRule.memberLine_effects_forSwitches strip f
  have hname : f.inSnakeCase.name = Text.snakeCase f.name := by
    unfold Field.inSnakeCase
    split
    · next hsame => exact hsame.symm
    · rfl
  refine ⟨(Collector.forSwitches true strip).prepare m,
    (Collector.forSwitches false strip).prepare m, memberValue f.inSnakeCase, memberValue f,
    ?_, ?_, ?_, ?_, memberValue_inSnakeCase_eq_iff f⟩
  · rw [Collector.models_forSwitches, List.getElem?_map, hm, Option.map_some]
  · rw [Collector.models_forSwitches, List.getElem?_map, hm, Option.map_some]
  · rw [Collector.bodyLines_prepare _ hkind, List.getElem?_map, hf, Option.map_some, hsnake,
      memberLine_eq, hname]
  · rw [Collector.bodyLines_prepare _ hkind, List.getElem?_map, hf, Option.map_some, hplain,
      memberLine_eq]

/-- An enumeration with one member. -/
def shadeModel (member : Field) : Model where
  name := "Shade"
  kind := .enumeration
  fields := [member]

/-- A member with a default keeps it for a value, whatever becomes of its name. -/
theorem member_values_kept_of_default :
    let f : Field :=
      { name := "darkRed", type := { name := "str" }, default := some (.string "red") }
    [shadeModel f][0]? = some (shadeModel f) ∧ (shadeModel f).kind = .enumeration ∧
      (shadeModel f).fields[0]? = some f ∧ Text.snakeCase f.name = "dark_red" ∧
      ∃ snake plain value,
        ((Collector.forSwitches true false).registerAll [shadeModel f]).models[0]? = some snake ∧
        ((Collector.forSwitches false false).registerAll [shadeModel f]).models[0]? = some plain ∧
        (bodyLines snake)[0]? = some ("dark_red" ++ " = " ++ value) ∧
        (bodyLines plain)[0]? = some ("darkRed" ++ " = " ++ value) := by
  intro f
  have hm : [shadeModel f][0]? = some (shadeModel f) := rfl
  have hkind : (shadeModel f).kind = .enumeration := rfl
  have hf : (shadeModel f).fields[0]? = some f := rfl
  have hname : Text.snakeCase f.name = "dark_red" := by decide
  obtain ⟨snake, plain, value, value', hsnake, hplain, hline, hline', hvalues⟩ :=
    member_values_kept_iff false [shadeModel f] hm hkind hf
  have hsame : value = value' := hvalues.2 (.inl (by simp [f]))
  exact ⟨hm, hkind, hf, hname, snake, plain, value, hsnake, hplain, hname ▸ hline,
    hsame ▸ hline'⟩

/-- A member without a default is called `darkRed` and has that name for a value; in snake case its
value is `dark_red`. -/
theorem member_values_not_kept_of_capital :
    let m := shadeModel { name := "darkRed", type := { name := "str" } }
    ((Collector.forSwitches false false).register m).models.map classText =
        ["class Shade(Enum):\n    darkRed = 'darkRed'"] ∧
      ((Collector.forSwitches true false).register m).models.map classText =
        ["class Shade(Enum):\n    dark_red = 'dark_red'"] := by
  decide

end Bindery
