import Bindery.Data.Turns
import Bindery.Reuse.Deduplicator

/-! Which models are replaced, and by what.

A deduplicator knows the first model of each structure that has come up (`Seen`), so what is
written in place of a model depends on the models in front of it alone (`inPlace`), and a name
has a stand-in exactly if a model of that name came after one of its structure (`Collapses`).
The structure leaves out what kind of thing a model is (`collapsed_alike_iff`). -/
namespace Bindery

theorem Model.asDuplicateOf_name (m : Model) (canonical : String) :
    (m.asDuplicateOf canonical).name = m.name := by
  unfold asDuplicateOf
  cases m.kind <;> rfl

namespace Deduplicator

/-- The first of some models with the structure of `m`. -/
def firstLike? (front : List Model) (m : Model) : Option Model :=
  front.find? (·.structuralKey? = m.structuralKey?)

/-- What is written in place of a model that comes after others. -/
def inPlace (front : List Model) (m : Model) : Model :=
  match firstLike? front m with
  | none => m
  | some c => m.asDuplicateOf c.name

/-- What is written in place of models that come after others. -/
def inPlaces : List Model → List Model → List Model
  | _, [] => []
  | front, m :: rest => inPlace front m :: inPlaces (front ++ [m]) rest

/-- In the row of models `m` comes after one of its structure, the first of which is `c`. -/
def Collapses (models : List Model) (m c : Model) : Prop :=
  ∃ front back, models = front ++ m :: back ∧ firstLike? front m = some c

section Collapses
variable {front models : List Model} {m c x : Model}

theorem Collapses.mem (h : Collapses models m c) : m ∈ models ∧ c ∈ models := by
  obtain ⟨front, back, rfl, hfirst⟩ := h
  exact ⟨by simp, List.mem_append_left _ (List.mem_of_find?_eq_some hfirst)⟩

theorem Collapses.structuralKey?_eq (h : Collapses models m c) :
    c.structuralKey? = m.structuralKey? := by
  obtain ⟨front, back, rfl, hfirst⟩ := h
  simpa using List.find?_some hfirst

theorem collapses_concat :
    Collapses (models ++ [x]) m c ↔ Collapses models m c ∨ (m = x ∧ firstLike? models m = some c) :=
  exists_turn_concat_iff

/-- A model is the first one of its structure or is collapsed onto that one. -/
theorem exists_first (hm : m ∈ models) :
    ∃ c, (m = c ∨ Collapses models m c) ∧ firstLike? models m = some c := by
  obtain ⟨front, back, rfl⟩ := List.append_of_mem hm
  cases hfirst : firstLike? front m with
  | none => exact ⟨m, .inl rfl, by rw [firstLike?] at hfirst ⊢; simp [hfirst]⟩
  | some c =>
    refine ⟨c, .inr ⟨front, back, rfl, hfirst⟩, ?_⟩
    rw [firstLike?] at hfirst ⊢
    simp [hfirst]

/-- Models collapse within their kind if and only if their structure tells their kind. -/
theorem collapses_alike_iff :
    (∀ m c, Collapses models m c → m.kind = c.kind) ↔
      ∀ m ∈ models, ∀ c ∈ models, m.structuralKey? = c.structuralKey? → m.kind = c.kind := by
  constructor
  · intro h
    have hkind : ∀ m ∈ models, ∃ c, firstLike? models m = some c ∧ m.kind = c.kind := by
      intro m hm
      obtain ⟨c, hc, hfirst⟩ := exists_first hm
      exact ⟨c, hfirst, hc.elim (congrArg Model.kind) (h m c)⟩
    intro m hm c hc hkey
    obtain ⟨first, hfirst, hm⟩ := hkind m hm
    obtain ⟨first', hfirst', hc⟩ := hkind c hc
    rw [firstLike?, hkey] at hfirst
    rw [firstLike?, hfirst, Option.some.injEq] at hfirst'
    rw [hm, hc, hfirst']
  · intro h m c hcollapses
    obtain ⟨hm, hc⟩ := hcollapses.mem
    exact h m hm c hc hcollapses.structuralKey?_eq.symm

end Collapses

/-! ### The run -/

/-- What a deduplicator knows after some models. -/
structure Seen (front : List Model) (d : Deduplicator) : Prop where
  first : ∀ key, d.first.lookup key =
    (front.find? (·.structuralKey? = some key)).map Model.name
  standIn : ∀ name canonical, d.standInOf? name = some canonical →
    ∃ m c, Collapses front m c ∧ m.name = name ∧ c.name = canonical
  collapsed : ∀ m c, Collapses front m c → ∃ canonical, d.standInOf? m.name = some canonical

theorem seen_nil : Seen [] {} where
  first _ := rfl
  standIn _ _ h := nomatch h
  collapsed _ _ h := absurd h.mem.1 List.not_mem_nil

section Run
variable {front ms out : List Model} {d d' : Deduplicator} {m m' : Model} {key : String}

theorem Seen.lookup (h : Seen front d) (hkey : m.structuralKey? = some key) :
    d.first.lookup key = (firstLike? front m).map Model.name := by
  rw [h.first, firstLike?, hkey]

/-- A structure comes up for the first time. -/
theorem Seen.concat_new (h : Seen front d) (hkey : m.structuralKey? = some key)
    (hnew : firstLike? front m = none) :
    Seen (front ++ [m]) { d with first := Entries.put key m.name d.first } where
  first k := by
    rw [Entries.lookup_put, List.find?_append, h.first]
    by_cases hk : k = key
    · subst hk
      rw [firstLike?, hkey] at hnew
      simp [hnew, hkey]
    · have hne : key ≠ k := fun e => hk e.symm
      simp [hk, hkey, hne]
  standIn name canonical hname := by
    obtain ⟨m', c, hcollapses, hnames⟩ := h.standIn name canonical hname
    exact ⟨m', c, collapses_concat.2 (.inl hcollapses), hnames⟩
  collapsed m' c hcollapses := by
    cases collapses_concat.1 hcollapses with
    | inl hold => exact h.collapsed m' c hold
    | inr hlast =>
      obtain ⟨rfl, hfirst⟩ := hlast
      rw [hnew] at hfirst
      cases hfirst

/-- A structure comes up again. -/
theorem Seen.concat_like (h : Seen front d) {c : Model} (hlike : firstLike? front m = some c) :
    Seen (front ++ [m]) { d with standIn := Entries.put m.name c.name d.standIn } where
  first k := by
    rw [h.first, List.find?_append]
    cases hfind : front.find? (·.structuralKey? = some k) with
    | some first => rfl
    | none =>
      have hkey : m.structuralKey? ≠ some k := by
        intro hkey
        rw [firstLike?, hkey, hfind] at hlike
        cases hlike
      simp [hkey]
  standIn name canonical hname := by
    rw [standInOf?, Entries.lookup_put] at hname
    split at hname
    · next heq =>
      exact ⟨m, c, collapses_concat.2 (.inr ⟨rfl, hlike⟩), heq.symm, Option.some.inj hname⟩
    · obtain ⟨m', c', hcollapses, hnames⟩ := h.standIn name canonical hname
      exact ⟨m', c', collapses_concat.2 (.inl hcollapses), hnames⟩
  collapsed m' c' hcollapses := by
    rw [standInOf?, Entries.lookup_put]
    split
    · exact ⟨c.name, rfl⟩
    · next hne =>
      cases collapses_concat.1 hcollapses with
      | inl hold => exact h.collapsed m' c' hold
      | inr hlast => exact absurd (congrArg Model.name hlast.1) hne

theorem Seen.process (h : Seen front d) (hrun : d.process? m = some (d', m')) :
    Seen (front ++ [m]) d' ∧ m' = inPlace front m := by
  rw [process?] at hrun
  cases hkey : m.structuralKey? with
  | none => simp [hkey] at hrun
  | some key =>
    have hlookup := h.lookup hkey
    rw [hkey, Option.bind_eq_bind, Option.bind_some] at hrun
    rw [inPlace]
    cases hlike : firstLike? front m with
    | none =>
      rw [hlike, Option.map_none] at hlookup
      simp only [hlookup, Option.pure_def, Option.some.injEq, Prod.mk.injEq] at hrun
      obtain ⟨rfl, rfl⟩ := hrun
      exact ⟨h.concat_new hkey hlike, rfl⟩
    | some c =>
      rw [hlike, Option.map_some] at hlookup
      simp only [hlookup, Option.pure_def, Option.some.injEq, Prod.mk.injEq] at hrun
      obtain ⟨rfl, rfl⟩ := hrun
      exact ⟨h.concat_like hlike, rfl⟩

theorem Seen.processAll (h : Seen front d) (hrun : d.processAll? ms = some (d', out)) :
    Seen (front ++ ms) d' ∧ out = inPlaces front ms := by
  induction ms generalizing front d out with
  | nil =>
    simp only [processAll?, Option.some.injEq, Prod.mk.injEq] at hrun
    obtain ⟨rfl, rfl⟩ := hrun
    exact ⟨by simpa using h, rfl⟩
  | cons m rest ih =>
    simp only [processAll?, Option.bind_eq_bind, Option.bind_eq_some_iff, Option.pure_def,
      Option.some.injEq, Prod.exists, Prod.mk.injEq] at hrun
    obtain ⟨d₁, m', hm, d₂, others, hrest, rfl, rfl⟩ := hrun
    obtain ⟨hseen, rfl⟩ := h.process hm
    obtain ⟨hseen, rfl⟩ := ih hseen hrest
    exact ⟨by simpa using hseen, rfl⟩

theorem inPlaces_append (front ms ms' : List Model) :
    inPlaces front (ms ++ ms') = inPlaces front ms ++ inPlaces (front ++ ms) ms' := by
  induction ms generalizing front with
  | nil => simp [inPlaces]
  | cons m rest ih => simp [inPlaces, ih]

theorem names_inPlaces (front ms : List Model) :
    (inPlaces front ms).map Model.name = ms.map Model.name := by
  induction ms generalizing front with
  | nil => rfl
  | cons m rest ih =>
    have hname : (inPlace front m).name = m.name := by
      unfold inPlace
      cases firstLike? front m with
      | none => rfl
      | some c => exact m.asDuplicateOf_name c.name
    rw [inPlaces, List.map_cons, List.map_cons, hname, ih]

/-- A model that is collapsed is written as a duplicate of the one that it is collapsed onto. -/
theorem Collapses.mem_inPlaces {c : Model} (h : Collapses ms m c) :
    m.asDuplicateOf c.name ∈ inPlaces [] ms := by
  obtain ⟨front, back, rfl, hfirst⟩ := h
  simp [inPlaces_append, inPlaces, inPlace, hfirst]

end Run

end Deduplicator

open Deduplicator

/-- **When models collapse within their kind.** The stand-ins after a run are the names of
models that were collapsed onto the first one of their structure, and each of these is written
as a duplicate of that one. All of them are of its kind if and only if no two of the models
have one structure and different kinds. -/
theorem collapsed_alike_iff {models out : List Model} {d : Deduplicator}
    (hrun : processAll? {} models = some (d, out)) :
    (∀ name canonical, d.standInOf? name = some canonical →
        ∃ m c, Collapses models m c ∧ m.name = name ∧ c.name = canonical) ∧
      (∀ m c, Collapses models m c →
        (∃ canonical, d.standInOf? m.name = some canonical) ∧ m.asDuplicateOf c.name ∈ out) ∧
      ((∀ m c, Collapses models m c → m.kind = c.kind) ↔
        ∀ m ∈ models, ∀ c ∈ models, m.structuralKey? = c.structuralKey? → m.kind = c.kind) := by
  obtain ⟨hseen, rfl⟩ := seen_nil.processAll hrun
  refine ⟨hseen.standIn, fun m c hcollapses => ?_, collapses_alike_iff⟩
  exact ⟨hseen.collapsed m c hcollapses, hcollapses.mem_inPlaces⟩

/-- A model with one member `RED`, a text. -/
def redModel (name : String) (kind : Kind) : Model where
  name := name
  kind := kind
  fields := [{ name := "RED", type := { name := "str" }, default := some (.string "red") }]

/-- Two enumerations with one structure, and a class with another. -/
theorem collapsed_alike_of_enumerations :
    let models := [redModel "Color" .enumeration, { name := "Car" }, redModel "Paint" .enumeration]
    ∃ d out, processAll? {} models = some (d, out) ∧ d.standInOf? "Paint" = some "Color" ∧
      ∀ m c, Collapses models m c → m.kind = c.kind := by
  intro models
  have hcollapsed : (processAll? {} models).map (·.1.standInOf? "Paint") = some (some "Color") := by
    decide +kernel
  obtain ⟨⟨d, out⟩, hrun, hpaint⟩ := Option.map_eq_some_iff.1 hcollapsed
  have hkinds : ∀ m ∈ models, ∀ c ∈ models, m.structuralKey? = c.structuralKey? →
      m.kind = c.kind := by decide +kernel
  exact ⟨d, out, hrun, hpaint, (collapsed_alike_iff hrun).2.2.2 hkinds⟩

/-- A class with the structure of an enumeration becomes a subclass of it. -/
theorem collapsed_not_alike_onto_enumeration :
    let models := [redModel "Color" .enumeration, redModel "Paint" .composite]
    ∃ d out, processAll? {} models = some (d, out) ∧
      out.map (fun m => (m.name, m.kind, m.bases)) =
        [("Color", .enumeration, []), ("Paint", .composite, ["Color"])] ∧
      ¬ ∀ name canonical, d.standInOf? name = some canonical →
        ∀ m ∈ models, ∀ c ∈ models, m.name = name → c.name = canonical → m.kind = c.kind := by
  intro models
  have hcollapsed : (processAll? {} models).map (fun done =>
      (done.1.standInOf? "Paint", done.2.map fun m => (m.name, m.kind, m.bases))) =
        some (some "Color", [("Color", .enumeration, []), ("Paint", .composite, ["Color"])]) := by
    decide +kernel
  obtain ⟨⟨d, out⟩, hrun, hdone⟩ := Option.map_eq_some_iff.1 hcollapsed
  obtain ⟨hpaint, hout⟩ := Prod.mk.inj hdone
  refine ⟨d, out, hrun, hout, fun h => ?_⟩
  have hkinds := h "Paint" "Color" hpaint (redModel "Paint" .composite) (by simp [models])
    (redModel "Color" .enumeration) (by simp [models]) rfl rfl
  cases hkinds

end Bindery
