import Bindery.Proofs.Reuse.Structure
import Bindery.Source.ClassText

/-! Which models of one structure have one text.

Literals spell values out (`toList_literal`), so from where a literal starts the value can be read
off, up to the spelling of its numbers. Two models of one kind, description and structure differ
in nothing but their names and the defaults of their fields, and each default is written in the
line of its field, so their texts agree exactly if their defaults are spelled alike
(`rendered_alike_iff`). The structure takes more values for alike than their literals do. -/
namespace Bindery.Source
open Json

/-! ### Literals -/

def literalSpelling : Spelling where
  null := "None".toList
  bool b := if b then "True".toList else "False".toList
  number n := n.text.toList
  text := quotedChars
  afterComma := [' ']
  afterColon := [' ']
  isWord_null := by decide
  isWord_bool := by decide
  isWord_number n := isWord_of_numeric n.numeric_text n.text_ne_nil
  bool_ne_null := by decide
  bool_injective := by decide
  number_ne_null n := n.numeric_text.toList_ne (by decide)
  number_ne_bool n b := n.numeric_text.toList_ne (by cases b <;> decide)
  opens_text _ := ⟨'\x27', _, rfl, by decide⟩
  text_cancel := quotedChars_cancel

/-- Alike up to the text of numbers. -/
abbrev LiterallyAlike : Json → Json → Prop := Alike (fun n n' => n.text = n'.text) False

theorem spelt_iff_literally {v w : Json} : literalSpelling.SpeltAlike v w ↔ LiterallyAlike v w :=
  ⟨fun h => h.mono (fun _ _ => String.toList_inj.1) id,
    fun h => h.mono (fun _ _ => congrArg String.toList) id⟩

theorem toList_join (words : List String) :
    (Text.join ", " words).toList = between literalSpelling.comma (words.map String.toList) := by
  cases words with
  | nil => rfl
  | cons word rest =>
    rw [Text.toList_join_cons, List.map_cons, between, List.flatMap_map]
    rfl

mutual

theorem toList_literal : ∀ v : Json, (literal v).toList = literalSpelling.spell v
  | .null => rfl
  | .bool true => rfl
  | .bool false => rfl
  | .number _ => rfl
  | .string s => toList_quoted s
  | .array items => by
    rw [literal, Spelling.spell, ← toList_literals items, ← toList_join]
    simp
  | .object members => by
    rw [literal, Spelling.spell, ← toList_memberLiterals members, ← toList_join]
    simp

theorem toList_literals : ∀ items : List Json,
    (literals items).map String.toList = literalSpelling.spellItems items
  | [] => rfl
  | item :: rest => by
    rw [literals, List.map_cons, toList_literal item, toList_literals rest, Spelling.spellItems]

theorem toList_memberLiterals : ∀ members : List (String × Json),
    (memberLiterals members).map String.toList = literalSpelling.spellMembers members
  | [] => rfl
  | (key, v) :: rest => by
    rw [memberLiterals, List.map_cons, toList_memberLiterals rest, Spelling.spellMembers,
      String.toList_append, String.toList_append, toList_literal v, toList_quoted]
    rfl

end

theorem literal_eq_iff {v w : Json} : literal v = literal w ↔ LiterallyAlike v w := by
  rw [← String.toList_inj, toList_literal, toList_literal, Spelling.spell_eq_iff,
    spelt_iff_literally]

theorem literal_cancel {v w : Json} {xs ys : List Char} (hxs : Stops xs) (hys : Stops ys)
    (h : (literal v).toList ++ xs = (literal w).toList ++ ys) : LiterallyAlike v w ∧ xs = ys := by
  rw [toList_literal, toList_literal] at h
  obtain ⟨halike, hrest⟩ := Spelling.alike_of_spell v w hxs hys h
  exact ⟨spelt_iff_literally.1 halike, hrest⟩

/-! ### Lines -/

def bodyLine : Kind → Field → String
  | .composite => fieldLine
  | .enumeration => memberLine

theorem bodyLines_eq (m : Model) : bodyLines m = m.fields.map (bodyLine m.kind) := by
  unfold bodyLines
  cases m.kind <;> rfl

/-- What follows a default in its line. -/
def afterDefault (kind : Kind) (f : Field) : String :=
  match kind, f.wireAlias with
  | .composite, some wire => ", alias=" ++ quoted wire ++ ")"
  | _, _ => ""

/-- What stands in front of a default in its line. -/
def beforeDefault (kind : Kind) (f : Field) : String :=
  match kind, f.wireAlias with
  | .composite, some _ => f.name ++ ": " ++ annotation f ++ " = Field("
  | .composite, none => f.name ++ ": " ++ annotation f ++ " = "
  | .enumeration, _ => f.name ++ " = "

theorem bodyLine_eq {kind : Kind} {f : Field} {v : Json} (h : f.default = some v) :
    bodyLine kind f = beforeDefault kind f ++ literal v ++ afterDefault kind f := by
  cases kind with
  | composite =>
    show fieldLine f = _
    unfold fieldLine defaultText beforeDefault afterDefault
    rw [h]
    cases f.wireAlias with
    | none => simp
    | some wire => simp [String.append_assoc]
  | enumeration =>
    show memberLine f = _
    unfold memberLine beforeDefault afterDefault
    simp [h]

/-- The characters of the lines of fields, each on a line of its own. -/
def bodyChars (kind : Kind) (fields : List Field) : List Char :=
  fields.flatMap fun f => '\n' :: (indent ++ bodyLine kind f).toList

section Lines
variable {kind : Kind} {f g : Field} {fields fields' : List Field} {xs ys : List Char}

theorem stops_bodyChars : Stops (bodyChars kind fields) := by
  cases fields with
  | nil => exact nofun
  | cons f rest => exact stops_cons (by decide)

theorem stops_afterDefault (h : Stops xs) : Stops ((afterDefault kind f).toList ++ xs) := by
  have hwire : ∀ wire, Stops ((", alias=" ++ quoted wire ++ ")").toList ++ xs) := by
    intro wire
    rw [String.toList_append, String.toList_append, List.append_assoc, List.append_assoc]
    exact stops_cons (by decide)
  unfold afterDefault
  cases kind with
  | enumeration => exact h
  | composite =>
    cases f.wireAlias with
    | none => exact h
    | some wire => exact hwire wire

/-- Fields that differ at most in their defaults, in one line each. -/
theorem bodyLine_cancel (h : f.Alike g) (hxs : Stops xs) (hys : Stops ys) :
    (bodyLine kind f).toList ++ xs = (bodyLine kind g).toList ++ ys ↔
      Option.Rel LiterallyAlike f.default g.default ∧ xs = ys := by
  obtain ⟨name, wireAlias, type, required, default, description, stripDefaultNone⟩ := f
  obtain ⟨name', wireAlias', type', required', default', description', stripDefaultNone'⟩ := g
  obtain ⟨rfl, rfl, rfl, rfl, hdefault, rfl, rfl⟩ := h
  -- now the two fields are one but for `default`, which both have or neither has
  cases hdefault with
  | none =>
    rw [List.append_cancel_left_eq]
    exact ⟨fun h => ⟨.none, h⟩, And.right⟩
  | @some v w _ =>
    rw [bodyLine_eq rfl, bodyLine_eq rfl]
    simp only [String.toList_append, List.append_assoc]
    constructor
    · intro h
      obtain ⟨halike, hrest⟩ := literal_cancel (stops_afterDefault hxs) (stops_afterDefault hys)
        (List.append_cancel_left h)
      exact ⟨.some halike, List.append_cancel_left hrest⟩
    · rintro ⟨hdefault, rfl⟩
      cases hdefault with
      | some halike =>
        rw [literal_eq_iff.2 halike]
        rfl

/-- Fields that differ at most in their defaults, line after line. -/
theorem bodyChars_eq_iff (h : List.Forall₂ Field.Alike fields fields') :
    bodyChars kind fields = bodyChars kind fields' ↔
      List.Forall₂ (fun f g => Option.Rel LiterallyAlike f.default g.default) fields fields' := by
  induction h with
  | nil => exact ⟨fun _ => .nil, fun _ => rfl⟩
  | @cons f g rest rest' hfg _ ih =>
    have hline : ∀ (f : Field) (rest : List Field), bodyChars kind (f :: rest) =
        ('\n' :: indent.toList) ++ ((bodyLine kind f).toList ++ bodyChars kind rest) := by
      intro f rest
      rw [bodyChars, List.flatMap_cons, String.toList_append]
      simp [bodyChars]
    rw [hline, hline, List.append_cancel_left_eq,
      bodyLine_cancel hfg stops_bodyChars stops_bodyChars, List.forall₂_cons, ih]

end Lines

/-! ### Models -/

/-- The lines in front of the fields. -/
def frontLines (m : Model) : List String :=
  let description := m.description.getD ""
  ("class " ++ m.name ++ "(" ++ basesText m ++ "):") ::
    if description = "" then if m.fields.isEmpty then [indent ++ "pass"] else []
    else docstring description ++ if m.fields.isEmpty then [] else [""]

theorem classText_eq_join (m : Model) :
    classText m = Text.join "\n" (frontLines m ++ (bodyLines m).map (indent ++ ·)) := by
  have hempty : ((bodyLines m).map (indent ++ ·)).isEmpty = m.fields.isEmpty := by
    rw [bodyLines_eq, List.isEmpty_map, List.isEmpty_map]
  unfold classText frontLines
  dsimp only
  rw [hempty]
  cases hfields : m.fields with
  | nil =>
    have hbody : (bodyLines m).map (indent ++ ·) = [] := by simp [bodyLines_eq, hfields]
    rw [hbody]
    split <;> simp
  | cons f rest => split <;> simp

theorem toList_classText (m : Model) : (classText m).toList =
    (Text.join "\n" (frontLines m)).toList ++ bodyChars m.kind m.fields := by
  rw [classText_eq_join, bodyLines_eq, List.map_map]
  unfold frontLines
  rw [List.cons_append, Text.toList_join_cons, Text.toList_join_cons, List.flatMap_append,
    List.append_assoc, List.flatMap_map]
  rfl

/-- What stands in front of the fields is the same for models of one structure. -/
theorem frontLines_eq {m m' : Model} (hname : m.name = m'.name) (hkind : m.kind = m'.kind)
    (hdescription : m.description = m'.description) (h : m.SameStructure m') :
    frontLines m = frontLines m' := by
  have hempty : m.fields.isEmpty = m'.fields.isEmpty := by
    rw [Bool.eq_iff_iff, List.isEmpty_iff_length_eq_zero, List.isEmpty_iff_length_eq_zero,
      h.fields.length_eq]
  unfold frontLines basesText
  rw [hname, hkind, hdescription, h.bases, hempty]

/-- **When models of one structure have one text.** Let two models of one kind and description
have one key. Whatever name both are given, their texts are the same if and only if the fields
that stand in one place have no default or defaults that are alike up to the text of numbers:
members in one order, and every number written alike. (The key asks for less: members may come in
any order, and a whole number may be written with or without a point.) -/
theorem rendered_alike_iff {m m' : Model} {key : String} (hkind : m.kind = m'.kind)
    (hdescription : m.description = m'.description) (hkey : m.structuralKey? = some key)
    (hkey' : m'.structuralKey? = some key) (name : String) :
    classText { m with name } = classText { m' with name } ↔
      List.Forall₂ (fun f g => Option.Rel LiterallyAlike f.default g.default) m.fields
        m'.fields := by
  have hsame : m.SameStructure m' := (Model.structuralKey?_eq_iff hkey hkey').1 rfl
  have hfront : frontLines { m with name } = frontLines { m' with name } :=
    frontLines_eq rfl hkind hdescription ⟨hsame.bases, hsame.fields, hsame.templateData⟩
  rw [← String.toList_inj, toList_classText, toList_classText, hfront,
    List.append_cancel_left_eq]
  show bodyChars m.kind m.fields = bodyChars m'.kind m'.fields ↔ _
  rw [hkind]
  exact bodyChars_eq_iff hsame.fields

/-- A class whose only field is a number with a default. -/
def ratioModel (name : String) (default : Json.Number) : Model where
  name := name
  fields := [{ name := "ratio", type := { name := "float" }, default := some (.number default) }]

/-- The namespace of a model makes no difference to its text. -/
theorem rendered_alike_elsewhere :
    let m := ratioModel "Ratio" (.integer 1)
    let m' := { ratioModel "Share" (.integer 1) with path := ["shop"] }
    ∃ key, m.structuralKey? = some key ∧ m'.structuralKey? = some key ∧
      classText { m with name := "Part" } = classText { m' with name := "Part" } := by
  intro m m'
  have hsome : m.structuralKey?.isSome = true := by decide
  have hsame : m.structuralKey? = m'.structuralKey? := by decide +kernel
  obtain ⟨key, hkey⟩ := Option.isSome_iff_exists.1 hsome
  have hkey' : m'.structuralKey? = some key := hsame.symm.trans hkey
  exact ⟨key, hkey, hkey', (rendered_alike_iff rfl rfl hkey hkey' "Part").2
    (.cons (.some (.refl _)) .nil)⟩

/-- A whole number with a point has the key of one without, and another text. -/
theorem rendered_not_alike_of_whole_number :
    let m := ratioModel "Ratio" (.integer 1)
    let m' := ratioModel "Share" (.double ⟨false, Nat.pow 2 52, -52⟩)
    (∃ key, m.structuralKey? = some key ∧ m'.structuralKey? = some key) ∧ m.kind = m'.kind ∧
      m.description = m'.description ∧
      classText { m with name := "Part" } =
        "class Part(BaseModel):\n    ratio: Optional[float] = 1" ∧
      classText { m' with name := "Part" } =
        "class Part(BaseModel):\n    ratio: Optional[float] = 1.0" := by
  intro m m'
  have hsome : m.structuralKey?.isSome = true := by decide
  have hsame : m.structuralKey? = m'.structuralKey? := by decide +kernel
  obtain ⟨key, hkey⟩ := Option.isSome_iff_exists.1 hsome
  exact ⟨⟨key, hkey, hsame.symm.trans hkey⟩, rfl, rfl, by decide, by decide⟩

end Bindery.Source
