import Bindery.Proofs.Json.Canonical
import Bindery.Proofs.Reuse.Collapsing

/-! What the key of a structure tells.

A key is the canonical text of the structure as a value, and from the value everything can be
taken out again: a member that is left out is told from one that is there by looking it up, so
types are known from their values (`DataType.eq_of_alike`), and fields and models up to the
free-form values in them (`Field.toJson_alike_iff`, `Model.structureJson_alike_iff`). Two models
have one key exactly if they have the same structure (`same_key_iff`). -/
namespace Bindery

/-- Fields that differ at most in how their defaults are written. -/
structure Field.Alike (f g : Field) : Prop where
  name : f.name = g.name
  wireAlias : f.wireAlias = g.wireAlias
  type : f.type = g.type
  required : f.required = g.required
  default : Option.Rel Json.CanonicallyAlike f.default g.default
  description : f.description = g.description
  stripDefaultNone : f.stripDefaultNone = g.stripDefaultNone

/-- Models with the same base classes, the same fields in the same order and the same template
data, up to the order of members and the canonical text of numbers in free-form values. -/
structure Model.SameStructure (m m' : Model) : Prop where
  bases : m.bases = m'.bases
  fields : List.Forall₂ Field.Alike m.fields m'.fields
  templateData : Json.CanonicallyAlike (.object m.templateData.entries)
    (.object m'.templateData.entries)

/-! ### Members -/

namespace Json

theorem lookup_given {α : Type} (encode : α → Json) (o : Option α) (k key : String) :
    (given key encode o).lookup k = if k = key then o.map encode else none := by
  cases o with
  | none => simp [given]
  | some a =>
    by_cases hk : k = key
    · simp [given, hk]
    · simp [given, List.lookup_cons, beq_false_of_ne hk, hk]

section Members
variable {same : Number → Number → Prop} {anyOrder : Prop}

/-- What is known from its value is known from a value that may be left out. -/
theorem eq_of_optionRel_map {α : Type} {encode : α → Json}
    (hencode : ∀ a b, Alike same anyOrder (encode a) (encode b) → a = b) {o o' : Option α}
    (h : Option.Rel (Alike same anyOrder) (o.map encode) (o'.map encode)) : o = o' := by
  cases o with
  | none =>
    cases o' with
    | none => rfl
    | some b => cases h
  | some a =>
    cases o' with
    | none => cases h
    | some b =>
      cases h with
      | some h => rw [hencode a b h]

theorem eq_of_optionRel_string {o o' : Option String}
    (h : Option.Rel (Alike same anyOrder) (o.map .string) (o'.map .string)) : o = o' :=
  eq_of_optionRel_map (fun _ _ => Alike.string) h

theorem Alike.of_optionRel {v w : Json} (h : Option.Rel (Alike same anyOrder) (some v) (some w)) :
    Alike same anyOrder v w := by
  cases h with
  | some h => exact h

theorem Alike.rel_of_lookup {members members' : List (String × Json)} {key : String}
    {o o' : Option Json} (h : Alike same anyOrder (.object members) (.object members'))
    (hkey : members.lookup key = o) (hkey' : members'.lookup key = o') :
    Option.Rel (Alike same anyOrder) o o' := by
  rw [← hkey, ← hkey']
  exact h.lookup key

theorem Alike.of_lookup {members members' : List (String × Json)} {v w : Json}
    (h : Alike same anyOrder (.object members) (.object members')) (key : String)
    (hkey : members.lookup key = some v) (hkey' : members'.lookup key = some w) :
    Alike same anyOrder v w :=
  .of_optionRel (h.rel_of_lookup hkey hkey')

theorem eq_of_alike_texts {ts us : List String}
    (h : Alike same anyOrder (texts ts) (texts us)) : ts = us := by
  have hitems := h.items
  rw [List.forall₂_map_left_iff, List.forall₂_map_right_iff] at hitems
  rw [← List.forall₂_eq_eq_eq]
  exact hitems.imp fun _ _ => Alike.string

end Members

end Json

open Json

/-! ### Types -/

namespace DataType
variable {same : Number → Number → Prop} {anyOrder : Prop}

/-- The parameters of a type as a value, if there are any. -/
def parametersJson? : List DataType → Option Json
  | [] => none
  | t :: rest => some (.array (listToJson (t :: rest)))

theorem lookup_toJson (t : DataType) : ∃ members, t.toJson = .object members ∧
    members.lookup "type" = some (.string t.name) ∧
    members.lookup "module_name" = t.home.map .string ∧
    members.lookup "reference" = t.origin.map (fun path => .object [("path", .string path)]) ∧
    members.lookup "container" = t.container.map .string ∧
    members.lookup "data_types" = parametersJson? t.parameters := by
  obtain ⟨name, home, origin, container, parameters⟩ := t
  cases parameters with
  | nil =>
    refine ⟨_, by rw [toJson], ?_, ?_, ?_, ?_, ?_⟩ <;>
      simp [List.lookup_append, List.lookup_cons, lookup_given, parametersJson?]
  | cons p ps =>
    refine ⟨_, by rw [toJson], ?_, ?_, ?_, ?_, ?_⟩ <;>
      simp [List.lookup_append, List.lookup_cons, lookup_given, parametersJson?, listToJson]

mutual

theorem eq_of_alike : ∀ t u : DataType, Json.Alike same anyOrder t.toJson u.toJson → t = u
  | ⟨name, home, origin, container, parameters⟩, u, h => by
    obtain ⟨members, hmembers, htype, hhome, horigin, hcontainer, hparameters⟩ :=
      lookup_toJson ⟨name, home, origin, container, parameters⟩
    obtain ⟨members', hmembers', htype', hhome', horigin', hcontainer', hparameters'⟩ :=
      lookup_toJson u
    rw [hmembers, hmembers'] at h
    obtain ⟨name', home', origin', container', parameters'⟩ := u
    obtain rfl : name = name' := (h.of_lookup _ htype htype').string
    obtain rfl : home = home' := eq_of_optionRel_string (h.rel_of_lookup hhome hhome')
    obtain rfl : origin = origin' := eq_of_optionRel_map
      (fun _ _ hpath => (hpath.of_lookup "path" rfl rfl).string)
      (h.rel_of_lookup horigin horigin')
    obtain rfl : container = container' :=
      eq_of_optionRel_string (h.rel_of_lookup hcontainer hcontainer')
    have hbelow := h.rel_of_lookup hparameters hparameters'
    -- a type without parameters leaves the member out, so both have some or neither has
    have hitems : List.Forall₂ (Json.Alike same anyOrder) (listToJson parameters)
        (listToJson parameters') := by
      cases parameters with
      | nil =>
        cases parameters' with
        | nil => exact .nil
        | cons _ _ => cases hbelow
      | cons _ _ =>
        cases parameters' with
        | nil => cases hbelow
        | cons _ _ => exact (Json.Alike.of_optionRel hbelow).items
    rw [eq_of_forall₂_alike parameters parameters' hitems]

theorem eq_of_forall₂_alike : ∀ ts us : List DataType,
    List.Forall₂ (Json.Alike same anyOrder) (listToJson ts) (listToJson us) → ts = us
  | [], [], _ => rfl
  | [], _ :: _, h => nomatch h
  | _ :: _, [], h => nomatch h
  | t :: ts, u :: us, .cons h hrest => by rw [eq_of_alike t u h, eq_of_forall₂_alike ts us hrest]

end

end DataType

/-! ### Fields and models -/

theorem Field.lookup_toJson (f : Field) : ∃ members, f.toJson = .object members ∧
    members.lookup "name" = some (.string f.name) ∧
    members.lookup "alias" = f.wireAlias.map .string ∧
    members.lookup "data_type" = some f.type.toJson ∧
    members.lookup "required" = some (.bool f.required) ∧
    members.lookup "default" = f.default ∧
    members.lookup "description" = f.description.map .string ∧
    members.lookup "strip_default_none" = some (.bool f.stripDefaultNone) := by
  refine ⟨_, rfl, ?_, ?_, ?_, ?_, ?_, ?_, ?_⟩ <;>
    simp [List.lookup_append, List.lookup_cons, lookup_given]

/-- Fields have alike values exactly if they differ at most in how their defaults are written. -/
theorem Field.toJson_alike_iff {f g : Field} : CanonicallyAlike f.toJson g.toJson ↔ f.Alike g := by
  constructor
  · intro h
    obtain ⟨members, hmembers, hname, halias, htype, hrequired, hdefault, hdescription, hstrip⟩ :=
      f.lookup_toJson
    obtain ⟨members', hmembers', hname', halias', htype', hrequired', hdefault', hdescription',
      hstrip'⟩ := g.lookup_toJson
    rw [hmembers, hmembers'] at h
    exact {
      name := (h.of_lookup _ hname hname').string
      wireAlias := eq_of_optionRel_string (h.rel_of_lookup halias halias')
      type := DataType.eq_of_alike _ _ (h.of_lookup _ htype htype')
      required := (h.of_lookup _ hrequired hrequired').bool
      default := h.rel_of_lookup hdefault hdefault'
      description := eq_of_optionRel_string (h.rel_of_lookup hdescription hdescription')
      stripDefaultNone := (h.of_lookup _ hstrip hstrip').bool }
  · rintro ⟨hname, halias, htype, hrequired, hdefault, hdescription, hstrip⟩
    unfold Field.toJson
    rw [hname, halias, htype, hrequired, hdescription, hstrip]
    cases hf : f.default with
    | none =>
      cases hg : g.default with
      | none => exact .refl _
      | some w =>
        rw [hf, hg] at hdefault
        cases hdefault
    | some v =>
      cases hg : g.default with
      | none =>
        rw [hf, hg] at hdefault
        cases hdefault
      | some w =>
        rw [hf, hg] at hdefault
        have hmember : ∀ front back, CanonicallyAlike (.object (front ++ ("default", v) :: back))
            (.object (front ++ ("default", w) :: back)) :=
          fun _ _ => .member (Json.Alike.of_optionRel hdefault)
        have hfield := hmember
          ([("name", .string g.name)] ++ given "alias" .string g.wireAlias ++
            [("data_type", g.type.toJson), ("required", .bool g.required)])
          (given "description" .string g.description ++
            [("strip_default_none", .bool g.stripDefaultNone)])
        simpa [given] using hfield

theorem Model.structureJson_alike_iff {m m' : Model} :
    CanonicallyAlike m.structureJson m'.structureJson ↔ m.SameStructure m' := by
  constructor
  · intro h
    have hbases : CanonicallyAlike (texts m.bases) (texts m'.bases) :=
      h.of_lookup "base_classes" rfl rfl
    have hdata : CanonicallyAlike (.object m.templateData.entries)
        (.object m'.templateData.entries) := h.of_lookup "extra_template_data" rfl rfl
    have hfields : CanonicallyAlike (.array (m.fields.map Field.toJson))
        (.array (m'.fields.map Field.toJson)) := h.of_lookup "fields" rfl rfl
    have hitems := hfields.items
    rw [List.forall₂_map_left_iff, List.forall₂_map_right_iff] at hitems
    exact ⟨eq_of_alike_texts hbases, hitems.imp fun _ _ => Field.toJson_alike_iff.1, hdata⟩
  · rintro ⟨hbases, hfields, hdata⟩
    have hitems : List.Forall₂ CanonicallyAlike (m.fields.map Field.toJson)
        (m'.fields.map Field.toJson) := by
      rw [List.forall₂_map_left_iff, List.forall₂_map_right_iff]
      exact hfields.imp fun _ _ => Field.toJson_alike_iff.2
    unfold structureJson
    rw [hbases]
    exact .object (.cons ⟨rfl, .refl _⟩ (.cons ⟨rfl, hdata⟩
      (.cons ⟨rfl, .array hitems⟩ .nil)))

theorem Model.structuralKey?_eq_iff {m m' : Model} {key key' : String}
    (hm : m.structuralKey? = some key) (hm' : m'.structuralKey? = some key') :
    key = key' ↔ m.SameStructure m' :=
  (canonical?_eq_iff hm hm').trans structureJson_alike_iff

/-! ### Runs -/

namespace Deduplicator

theorem exists_key_of_process {d d' : Deduplicator} {m m' : Model}
    (hrun : d.process? m = some (d', m')) : ∃ key, m.structuralKey? = some key := by
  rw [process?] at hrun
  obtain ⟨key, hkey, _⟩ := Option.bind_eq_some_iff.1 hrun
  exact ⟨key, hkey⟩

/-- Models that took their turns have keys. -/
theorem exists_key_of_processAll {d d' : Deduplicator} {models out : List Model}
    (hrun : d.processAll? models = some (d', out)) :
    ∀ m ∈ models, ∃ key, m.structuralKey? = some key := by
  induction models generalizing d out with
  | nil => simp
  | cons m rest ih =>
    simp only [processAll?, Option.bind_eq_bind, Option.bind_eq_some_iff, Option.pure_def,
      Option.some.injEq, Prod.exists, Prod.mk.injEq] at hrun
    obtain ⟨d₁, m', hm, d₂, others, hrest, rfl, _⟩ := hrun
    intro c hc
    rcases List.mem_cons.1 hc with rfl | hc
    · exact exists_key_of_process hm
    · exact ih hrest c hc

theorem structuralKey?_eq_iff_of_processAll {d d' : Deduplicator} {models out : List Model}
    (hrun : d.processAll? models = some (d', out)) {m c : Model} (hm : m ∈ models)
    (hc : c ∈ models) : m.structuralKey? = c.structuralKey? ↔ m.SameStructure c := by
  obtain ⟨key, hkey⟩ := exists_key_of_processAll hrun m hm
  obtain ⟨key', hkey'⟩ := exists_key_of_processAll hrun c hc
  rw [hkey, hkey', Option.some.injEq]
  exact Model.structuralKey?_eq_iff hkey hkey'

end Deduplicator

open Deduplicator

/-- **A key tells the structure of a model, and nothing else.** Two models that have keys have one
key if and only if they have the same structure. So after a run a name has a stand-in only if
two models, one of that name and one of the name that stands in, have the same structure, and a
model that comes after one of its structure always has a stand-in. -/
theorem same_key_iff :
    (∀ (m m' : Model) (key key' : String), m.structuralKey? = some key →
        m'.structuralKey? = some key' → (key = key' ↔ m.SameStructure m')) ∧
      ∀ (models out : List Model) (d : Deduplicator), processAll? {} models = some (d, out) →
        (∀ name canonical, d.standInOf? name = some canonical → ∃ m ∈ models, ∃ c ∈ models,
            m.name = name ∧ c.name = canonical ∧ m.SameStructure c) ∧
          ∀ front m back, models = front ++ m :: back → ∀ c ∈ front, m.SameStructure c →
            ∃ canonical, d.standInOf? m.name = some canonical := by
  refine ⟨fun m m' key key' => Model.structuralKey?_eq_iff, fun models out d hrun => ⟨?_, ?_⟩⟩
  · intro name canonical hname
    obtain ⟨m, c, hcollapses, rfl, rfl⟩ := (seen_nil.processAll hrun).1.standIn name canonical hname
    obtain ⟨hm, hc⟩ := hcollapses.mem
    exact ⟨m, hm, c, hc, rfl, rfl,
      (structuralKey?_eq_iff_of_processAll hrun hm hc).1 hcollapses.structuralKey?_eq.symm⟩
  · rintro front m back rfl c hc hsame
    have hkey := (structuralKey?_eq_iff_of_processAll hrun (by simp)
      (List.mem_append_left _ hc)).2 hsame
    cases hfirst : firstLike? front m with
    | none =>
      have hnone := List.find?_eq_none.1 hfirst c hc
      rw [decide_eq_true_eq] at hnone
      exact absurd hkey.symm hnone
    | some first =>
      exact (seen_nil.processAll hrun).1.collapsed m first ⟨front, back, rfl, hfirst⟩

/-- A class whose only field has an object as its default. -/
def defaultModel (name : String) (members : List (String × Json)) : Model where
  name := name
  fields := [{ name := "options", type := { name := "dict" }, default := some (.object members) }]

/-- The order of members and the spelling of a number make no difference, the value of one does. -/
theorem same_key_of_reordered :
    let first := defaultModel "First" [("b", .number (.integer 1)), ("a", .number (.integer 2))]
    let second := defaultModel "Second"
      [("a", .number (.double ⟨false, Nat.pow 2 52, -51⟩)), ("b", .number (.integer 1))]
    let third := defaultModel "Third" [("a", .number (.integer 3)), ("b", .number (.integer 1))]
    first.SameStructure second ∧ ¬ first.SameStructure third ∧
      ∃ d out canonical, processAll? {} [first, second, third] = some (d, out) ∧
        d.standInOf? "Second" = some canonical := by
  intro first second third
  have hfirst : first.structuralKey?.isSome = true := by decide
  have hthird : third.structuralKey?.isSome = true := by decide
  have hsecond : first.structuralKey? = second.structuralKey? := by decide +kernel
  have hother : first.structuralKey? ≠ third.structuralKey? := by decide +kernel
  have hdone : (processAll? {} [first, second, third]).isSome = true := by decide +kernel
  obtain ⟨key, hkey⟩ := Option.isSome_iff_exists.1 hfirst
  obtain ⟨key', hkey'⟩ := Option.isSome_iff_exists.1 hthird
  obtain ⟨⟨d, out⟩, hrun⟩ := Option.isSome_iff_exists.1 hdone
  have hkeySecond : second.structuralKey? = some key := hsecond.symm.trans hkey
  have hsame : first.SameStructure second := (same_key_iff.1 _ _ key key hkey hkeySecond).1 rfl
  refine ⟨hsame, fun h => hother ?_, d, out, ?_⟩
  · rw [hkey, hkey', (same_key_iff.1 _ _ key key' hkey hkey').2 h]
  · have hsymm : second.SameStructure first :=
      (same_key_iff.1 _ _ key key hkeySecond hkey).1 rfl
    obtain ⟨canonical, hcanonical⟩ :=
      (same_key_iff.2 _ _ _ hrun).2 [first] second [third] rfl first (by simp) hsymm
    exact ⟨canonical, hrun, hcanonical⟩

end Bindery
