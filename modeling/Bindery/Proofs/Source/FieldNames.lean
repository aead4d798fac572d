import Mathlib.Data.List.Nodup
import Bindery.Proofs.Model.FieldRules
import Bindery.Proofs.Source.Rendering
import Bindery.Proofs.Text.Meeting

/-! Fields that get one name.

The lines of a class body are run one after the other, and a line for a name that is there already
takes the place of the earlier one (`Model.boundFields`). Putting names into snake case can make
two names one: a field that gets another name meets a field that has this name or gets it too
(`Field.Collides`). Names that are in snake case already never meet. Nothing else is lost, so the
fields of a class keep apart exactly if no two of them collide, which can be told from the letters
of their names (`field_names_apart_iff`). -/
namespace Bindery

/-- The fields of a class below its body: each under its name, the last one of a name. -/
def Model.boundFields (m : Model) : Entries String Field :=
  Entries.ofList (m.fields.map fun f => (f.name, f))

/-- A class keeps all of its fields exactly if their names differ. -/
theorem Model.boundFields_eq_iff {m : Model} :
    m.boundFields = m.fields.map (fun f => (f.name, f)) ↔ (m.fields.map (·.name)).Nodup := by
  rw [boundFields, Entries.ofList_eq_self_iff, Entries.keys, List.map_map]
  rfl

namespace Source

/-- A line of a class body is about a name: an annotation or a value is given to it. -/
def IsAbout (line name : String) : Prop :=
  ∃ rest, line = name ++ ": " ++ rest ∨ line = name ++ " = " ++ rest

theorem isAbout_fieldLine (f : Field) : IsAbout (fieldLine f) f.name := by
  have hhead : ∀ rest, IsAbout (f.name ++ (": " ++ rest)) f.name := fun rest =>
    ⟨rest, .inl (String.append_assoc ..).symm⟩
  unfold fieldLine
  dsimp only
  split
  all_goals
    simp only [String.append_assoc]
    exact hhead _

theorem isAbout_bodyLine (kind : Kind) (f : Field) : IsAbout (bodyLine kind f) f.name := by
  cases kind with
  | composite => exact isAbout_fieldLine f
  | enumeration => exact ⟨_, .inr rfl⟩

end Source

namespace Field
variable {f g : Field}

/-- A field gets another name, which is the one that another field has afterwards. -/
def Collides (f g : Field) : Prop :=
  f.name ≠ g.name ∧ Text.snakeCase f.name ≠ f.name ∧
    Text.snakeCase f.name = Text.snakeCase g.name

instance (f g : Field) : Decidable (f.Collides g) :=
  inferInstanceAs (Decidable (_ ∧ _ ∧ _))

theorem name_inSnakeCase (f : Field) : f.inSnakeCase.name = Text.snakeCase f.name := by
  unfold inSnakeCase
  split
  · next hsame => exact hsame.symm
  · rfl

/-- Different names that become one: at least one of them changes. -/
theorem collides_or_of_eq (hne : f.name ≠ g.name)
    (h : Text.snakeCase f.name = Text.snakeCase g.name) : f.Collides g ∨ g.Collides f := by
  by_cases hf : Text.snakeCase f.name = f.name
  · refine .inr ⟨hne.symm, fun hg => hne ?_, h.symm⟩
    rw [← hf, ← hg, h]
  · exact .inl ⟨hne, hf, h⟩

theorem nodup_snakeCase_iff {fields : List Field} (hd : (fields.map (·.name)).Nodup) :
    (fields.map fun f => Text.snakeCase f.name).Nodup ↔
      ∀ f ∈ fields, ∀ g ∈ fields, ¬ f.Collides g := by
  rw [List.nodup_map_iff_inj_on (List.Nodup.of_map _ hd)]
  constructor
  · rintro hinj f hf g hg ⟨hne, _, hsnake⟩
    exact hne (congrArg Field.name (hinj f hf g hg hsnake))
  · intro hnone f hf g hg hsnake
    by_contra hne
    have hnames : f.name ≠ g.name := fun h => hne (List.inj_on_of_nodup_map hd hf hg h)
    cases collides_or_of_eq hnames hsnake with
    | inl hfg => exact hnone f hf g hg hfg
    | inr hgf => exact hnone g hg f hf hgf

/-- Fields collide if their names differ and are spellings of one name in snake case. -/
theorem collides_or_iff_meet (hf : Text.IsLevel f.name) (hg : Text.IsLevel g.name) :
    f.Collides g ∨ g.Collides f ↔ f.name ≠ g.name ∧ Text.Meet f.name.toList g.name.toList := by
  rw [← Text.snakeCase_eq_iff hf hg]
  constructor
  · intro h
    cases h with
    | inl hfg => exact ⟨hfg.1, hfg.2.2⟩
    | inr hgf => exact ⟨hgf.1.symm, hgf.2.2.symm⟩
  · intro ⟨hne, hsnake⟩
    exact collides_or_of_eq hne hsnake

theorem forall_not_collides_iff {fields : List Field}
    (hlevel : ∀ f ∈ fields, Text.IsLevel f.name) :
    (∀ f ∈ fields, ∀ g ∈ fields, ¬ f.Collides g) ↔
      ∀ f ∈ fields, ∀ g ∈ fields, f.name ≠ g.name →
        ¬ Text.Meet f.name.toList g.name.toList := by
  constructor
  · intro hnone f hf g hg hne hmeet
    cases (collides_or_iff_meet (hlevel f hf) (hlevel g hg)).2 ⟨hne, hmeet⟩ with
    | inl hfg => exact hnone f hf g hg hfg
    | inr hgf => exact hnone g hg f hf hgf
  · intro hnone f hf g hg hfg
    have hmeet := (collides_or_iff_meet (hlevel f hf) (hlevel g hg)).1 (.inl hfg)
    exact hnone f hf g hg hmeet.1 hmeet.2

end Field

theorem FieldRule.name_effects_forSwitches (strip : Bool) (f : Field) :
    (effects (Collector.forSwitches true strip).rules f).name = Text.snakeCase f.name := by
  rw [effects_forSwitches, if_pos rfl]
  exact f.name_inSnakeCase

open Source

/-- **When fields keep apart in snake case.** Let a model whose fields have different names be
registered as one of some models, with fields put into snake case and defaults of `None` left out
or not. In its text each field has its line, which is about its name in snake case. The new names
differ, and the class keeps all of its fields, if and only if no field that gets another name gets
the one of another field; that is, no two of the names are spelled alike up to capitals with an
underscore in the one wherever one is put into the other. -/
theorem field_names_apart_iff (strip : Bool) (models : List Model) {place : Nat} {m : Model}
    (hm : models[place]? = some m) (hd : (m.fields.map (·.name)).Nodup) :
    ∃ m', ((Collector.forSwitches true strip).registerAll models).models[place]? = some m' ∧
      List.Forall₂ (fun f line => IsAbout line (Text.snakeCase f.name)) m.fields (bodyLines m') ∧
      ((m'.fields.map (·.name)).Nodup ↔ ∀ f ∈ m.fields, ∀ g ∈ m.fields, ¬ f.Collides g) ∧
      (m'.boundFields = m'.fields.map (fun f => (f.name, f)) ↔
        ∀ f ∈ m.fields, ∀ g ∈ m.fields, ¬ f.Collides g) ∧
      ((∀ f ∈ m.fields, Text.IsLevel f.name) →
        (m'.boundFields = m'.fields.map (fun f => (f.name, f)) ↔
          ∀ f ∈ m.fields, ∀ g ∈ m.fields, f.name ≠ g.name →
            ¬ Text.Meet f.name.toList g.name.toList)) := by
  let c := Collector.forSwitches true strip
  have hnames : (c.prepare m).fields.map (·.name) =
      m.fields.map fun f => Text.snakeCase f.name := by
    rw [Collector.prepare, List.map_map]
    exact List.map_congr_left fun f _ => FieldRule.name_effects_forSwitches strip f
  have hbound : (c.prepare m).boundFields = (c.prepare m).fields.map (fun f => (f.name, f)) ↔
      ∀ f ∈ m.fields, ∀ g ∈ m.fields, ¬ f.Collides g := by
    rw [Model.boundFields_eq_iff, hnames, Field.nodup_snakeCase_iff hd]
  refine ⟨c.prepare m, ?_, ?_, ?_, hbound, fun hlevel => ?_⟩
  · rw [Collector.models_forSwitches, List.getElem?_map, hm, Option.map_some]
  · rw [bodyLines_eq, Collector.prepare, List.map_map, List.forall₂_map_right_iff,
      List.forall₂_same]
    intro f _
    rw [← FieldRule.name_effects_forSwitches strip f]
    exact isAbout_bodyLine m.kind _
  · rw [hnames, Field.nodup_snakeCase_iff hd]
  · rw [hbound, Field.forall_not_collides_iff hlevel]

/-- A class of two text fields. -/
def namedPet (name name' : String) : Model where
  name := "Pet"
  fields :=
    [{ name := name, type := { name := "str" } }, { name := name', type := { name := "str" } }]

/-- `petName` gets another name, but not that of the other field. -/
theorem field_names_apart_of_owner :
    let m := namedPet "petName" "owner_name"
    [m][0]? = some m ∧ (m.fields.map (·.name)).Nodup ∧
      ∃ m', ((Collector.forSwitches true false).registerAll [m]).models[0]? = some m' ∧
        (m'.fields.map (·.name)).Nodup ∧
        m'.boundFields = m'.fields.map (fun f => (f.name, f)) ∧
        ¬ Text.Meet "petName".toList "owner_name".toList := by
  intro m
  have hm : [m][0]? = some m := rfl
  have hd : (m.fields.map (·.name)).Nodup := by decide
  have hnone : ∀ f ∈ m.fields, ∀ g ∈ m.fields, ¬ f.Collides g := by decide
  have hlevel : ∀ f ∈ m.fields, Text.IsLevel f.name := by decide
  obtain ⟨m', hm', _, hnames, hbound, hmeet⟩ := field_names_apart_iff false [m] hm hd
  refine ⟨hm, hd, m', hm', hnames.2 hnone, hbound.2 hnone, ?_⟩
  exact (hmeet hlevel).1 (hbound.2 hnone) _ List.mem_cons_self _
    (List.mem_cons_of_mem _ List.mem_cons_self) (by decide)

/-- `petName` gets the name of the other field, and the class has one field of the two. -/
theorem field_names_not_apart_of_both_spellings :
    let m := namedPet "petName" "pet_name"
    (m.fields.map (·.name)).Nodup ∧
      ((Collector.forSwitches true false).register m).models.map
          (fun m' => (m'.fields.map (·.name), m'.boundFields.length)) =
        [(["pet_name", "pet_name"], 1)] ∧
      ((Collector.forSwitches true false).register m).models.map bodyLines =
        [["pet_name: Optional[str] = Field(None, alias='petName')",
          "pet_name: Optional[str] = None"]] := by
  decide

end Bindery
