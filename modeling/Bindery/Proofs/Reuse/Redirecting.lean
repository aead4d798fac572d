import Mathlib.Data.List.Nodup
import Bindery.Proofs.Model.Traversal
import Bindery.Proofs.Reference.Renaming
import Bindery.Proofs.Reuse.Collapsing

/-! What becomes of types when models are collapsed.

If no two models have one name, a name says at which turn its model came, and whether it has a
stand-in is decided at that turn: it has one if a model of the same structure came before
(`Seen.standInOf?_eq`), namely the first of these. The first one has no stand-in itself
(`Seen.standInOf?_standIn`), so redirecting types leads nowhere twice, and only ever to an
earlier turn (`duplicates_redirected`). -/
namespace Bindery

/-! ### Renaming without a state -/

namespace DataType
variable {σ : Type} {f : σ → DataType → σ × String}

/-- Types that are renamed whatever the state are renamed one by one. -/
theorem Renames.names {g : DataType → String} {s s' : σ} {ts ts' : List DataType}
    (h : Renames f s ts s' ts') (hname : ∀ s t, (f s t).2 = g t) :
    List.Forall₂ (fun t t' => t'.name = g t) ts ts' := by
  induction h with
  | nil => exact .nil
  | cons ht _ _ _ _ ih => exact .cons (ht.trans (hname _ _)) ih

mutual

theorem rename_of_forall : ∀ (s : σ) (t : DataType),
    (∀ u ∈ preorder t, ∀ s, (f s u).2 = u.name) → (rename f s t).2 = t
  | s, ⟨name, home, origin, container, parameters⟩, h => by
    rw [preorder, List.forall_mem_cons] at h
    show (⟨_, home, origin, container, _⟩ : DataType) = _
    rw [h.1 s, renameAll_of_forall _ parameters h.2]

theorem renameAll_of_forall : ∀ (s : σ) (ts : List DataType),
    (∀ u ∈ preorders ts, ∀ s, (f s u).2 = u.name) → (renameAll f s ts).2 = ts
  | _, [], _ => rfl
  | s, t :: rest, h => by
    rw [preorders, List.forall_mem_append] at h
    show (_ :: _ : List DataType) = _
    rw [rename_of_forall s t h.1, renameAll_of_forall _ rest h.2]

end

end DataType

namespace Model
variable {σ : Type} {f : σ → DataType → σ × String}

theorem renameFields_of_forall (s : σ) (fields : List Field)
    (h : ∀ u ∈ DataType.preorders (fields.map Field.type), ∀ s, (f s u).2 = u.name) :
    (renameFields f s fields).2 = fields := by
  induction fields generalizing s with
  | nil => rfl
  | cons field rest ih =>
    rw [List.map_cons, DataType.preorders, List.forall_mem_append] at h
    show (_ :: _ : List Field) = _
    rw [DataType.rename_of_forall s field.type h.1, ih _ h.2]

theorem renameTypes_of_forall (s : σ) (m : Model)
    (h : ∀ u ∈ m.allTypes, ∀ s, (f s u).2 = u.name) : (m.renameTypes f s).2 = m := by
  rw [allTypes, types, DataType.preorders_append, List.forall_mem_append] at h
  show { m with fields := _, extraTypes := _ } = m
  rw [renameFields_of_forall s m.fields h.1, DataType.renameAll_of_forall _ m.extraTypes h.2]

/-! ### Duplicates of themselves -/

/-- A class with one base and nothing of its own, which is what a duplicate class becomes. -/
structure IsBareSubclassOf (canonical : String) (m : Model) : Prop where
  kind : m.kind = .composite
  fields : m.fields = []
  bases : m.bases = [canonical]
  references : m.references = .empty
  extraTypes : m.extraTypes = []
  imports : m.imports = []
  templateData : m.templateData = .empty

theorem asDuplicateOf_eq_self_iff {m : Model} {canonical : String} :
    m.asDuplicateOf canonical = m ↔ m.kind = .enumeration ∨ m.IsBareSubclassOf canonical := by
  obtain ⟨name, kind, fields, bases, references, extraTypes, path, sourceFile, imports,
    description, templateData⟩ := m
  cases kind with
  | enumeration => exact iff_of_true rfl (.inl rfl)
  | composite =>
    constructor
    · intro h
      injection h with _ _ hfields hbases hreferences hextra _ _ himports _ hdata
      exact .inr ⟨rfl, hfields.symm, hbases.symm, hreferences.symm, hextra.symm, himports.symm,
        hdata.symm⟩
    · rintro (hkind | ⟨_, rfl, rfl, rfl, rfl, rfl, rfl⟩)
      · cases hkind
      · rfl

end Model

namespace Deduplicator

/-! ### Turns by number -/

theorem collapses_iff_getElem? {models : List Model} {m c : Model} :
    Collapses models m c ↔
      ∃ i, models[i]? = some m ∧ firstLike? (models.take i) m = some c := by
  constructor
  · rintro ⟨front, back, rfl, hfirst⟩
    exact ⟨front.length, by simp, by rwa [List.take_left]⟩
  · rintro ⟨i, hm, hfirst⟩
    obtain ⟨hi, rfl⟩ := List.getElem?_eq_some_iff.1 hm
    refine ⟨models.take i, models.drop (i + 1), ?_, hfirst⟩
    rw [← List.drop_eq_getElem_cons hi, List.take_append_drop]

theorem firstLike?_eq_none_iff {front : List Model} {m : Model} :
    firstLike? front m = none ↔ ∀ c ∈ front, c.structuralKey? ≠ m.structuralKey? := by
  simp [firstLike?]

/-- The first model of a structure came at some turn, and no model of its structure before. -/
theorem exists_turn_of_firstLike? {models : List Model} {i : Nat} {m c : Model}
    (h : firstLike? (models.take i) m = some c) :
    ∃ k < i, models[k]? = some c ∧ firstLike? (models.take k) c = none := by
  obtain ⟨hkey, front, back, hsplit, hnone⟩ := List.find?_eq_some_iff_append.1 h
  have hk : (models.take i)[front.length]? = some c := by simp [hsplit]
  have hlt : front.length < i := by
    by_contra hge
    rw [List.getElem?_take, if_neg hge] at hk
    cases hk
  rw [List.getElem?_take, if_pos hlt] at hk
  refine ⟨front.length, hlt, hk, ?_⟩
  have hfront : models.take front.length = front := by
    have htake := congrArg (List.take front.length) hsplit
    rwa [List.take_take, Nat.min_eq_left (Nat.le_of_lt hlt), List.take_left] at htake
  rw [hfront, firstLike?_eq_none_iff]
  intro a ha
  rw [of_decide_eq_true hkey]
  simpa using hnone a ha

/-- At its turn a model is written as what stands in its place. -/
theorem getElem?_inPlaces {models : List Model} {i : Nat} {m : Model} (hm : models[i]? = some m) :
    (inPlaces [] models)[i]? = some (inPlace (models.take i) m) := by
  obtain ⟨hi, rfl⟩ := List.getElem?_eq_some_iff.1 hm
  have hlength : ∀ front ms, (inPlaces front ms).length = ms.length := by
    intro front ms
    simpa using congrArg List.length (names_inPlaces front ms)
  have hsplit : models = models.take i ++ models[i] :: models.drop (i + 1) := by
    rw [← List.drop_eq_getElem_cons hi, List.take_append_drop]
  have hfront : (inPlaces [] (models.take i)).length = i := by
    rw [hlength, List.length_take, Nat.min_eq_left (Nat.le_of_lt hi)]
  conv_lhs => rw [hsplit, inPlaces_append]
  rw [List.getElem?_append_right (Nat.le_of_eq hfront), hfront, Nat.sub_self]
  rfl

/-! ### Stand-ins -/

section Seen
variable {models : List Model} {d : Deduplicator} {i : Nat} {m : Model}

/-- Whether a name has a stand-in, and which one, was decided at the turn of its model. -/
theorem Seen.standInOf?_eq (h : Seen models d) (hnames : (models.map Model.name).Nodup)
    (hm : models[i]? = some m) :
    d.standInOf? m.name = (firstLike? (models.take i) m).map Model.name := by
  -- names differ, so what collapsed under this name did so at this turn
  have hturn : ∀ m' c, Collapses models m' c → m'.name = m.name →
      firstLike? (models.take i) m = some c := by
    intro m' c hcollapses hname
    obtain ⟨j, hm', hfirst⟩ := collapses_iff_getElem?.1 hcollapses
    have hj : j < (models.map Model.name).length := by
      rw [List.length_map]
      exact (List.getElem?_eq_some_iff.1 hm').1
    have hsame : (models.map Model.name)[j]? = (models.map Model.name)[i]? := by
      rw [List.getElem?_map, List.getElem?_map, hm, hm', Option.map_some, Option.map_some, hname]
    obtain rfl := (List.getElem?_inj hj hnames).1 hsame
    obtain rfl := Option.some.inj (hm'.symm.trans hm)
    exact hfirst
  cases hfirst : firstLike? (models.take i) m with
  | none =>
    refine Option.eq_none_iff_forall_ne_some.2 fun canonical hsome => ?_
    obtain ⟨m', c, hcollapses, hname, _⟩ := h.standIn _ _ hsome
    have hc := hturn m' c hcollapses hname
    rw [hfirst] at hc
    cases hc
  | some c =>
    obtain ⟨canonical, hsome⟩ := h.collapsed m c (collapses_iff_getElem?.2 ⟨i, hm, hfirst⟩)
    obtain ⟨m', c', hcollapses, hname, rfl⟩ := h.standIn _ _ hsome
    have hc := hturn m' c' hcollapses hname
    rw [hfirst, Option.some.injEq] at hc
    rw [hsome, hc, Option.map_some]

theorem Seen.standInOf?_standIn (h : Seen models d) (hnames : (models.map Model.name).Nodup)
    {name canonical : String} (hsome : d.standInOf? name = some canonical) :
    d.standInOf? canonical = none := by
  obtain ⟨m, c, hcollapses, _, rfl⟩ := h.standIn _ _ hsome
  obtain ⟨i, _, hfirst⟩ := collapses_iff_getElem?.1 hcollapses
  obtain ⟨k, _, hc, hnone⟩ := exists_turn_of_firstLike? hfirst
  rw [h.standInOf?_eq hnames hc, hnone, Option.map_none]

/-- What stands in for the name of a model is the name of this model or of an earlier one. -/
theorem Seen.exists_turn_of_standIn (h : Seen models d) (hnames : (models.map Model.name).Nodup)
    (hm : models[i]? = some m) :
    ∃ k ≤ i, ∃ c, models[k]? = some c ∧ (d.standInOf? m.name).getD m.name = c.name := by
  rw [h.standInOf?_eq hnames hm]
  cases hfirst : firstLike? (models.take i) m with
  | none => exact ⟨i, Nat.le_refl i, m, hm, rfl⟩
  | some c =>
    obtain ⟨k, hk, hc, _⟩ := exists_turn_of_firstLike? hfirst
    exact ⟨k, Nat.le_of_lt hk, c, hc, rfl⟩

end Seen

/-! ### How many -/

/-- How many models come after one of their structure. -/
def repeats (models : List Model) : Nat :=
  models.zipIdx.countP fun p => (firstLike? (models.take p.2) p.1).isSome

theorem repeats_concat (models : List Model) (m : Model) :
    repeats (models ++ [m]) = repeats models + if (firstLike? models m).isSome then 1 else 0 := by
  have hbefore : ∀ p ∈ models.zipIdx, (models ++ [m]).take p.2 = models.take p.2 := by
    rintro ⟨c, k⟩ hp
    have hk := (List.getElem?_eq_some_iff.1 (List.mk_mem_zipIdx_iff_getElem?.1 hp)).1
    exact List.take_append_of_le_length (Nat.le_of_lt hk)
  rw [repeats, repeats, List.zipIdx_append, List.countP_append]
  congr 1
  · refine List.countP_congr fun p hp => ?_
    rw [hbefore p hp]
  · simp [List.countP_cons]

section Count
variable {front ms out : List Model} {d d' : Deduplicator} {m m' : Model}

theorem not_mem_keys_of_standInOf? {name : String} (h : d.standInOf? name = none) :
    name ∉ Entries.keys d.standIn := by
  intro hmem
  obtain ⟨entry, hentry, rfl⟩ := List.mem_map.1 hmem
  have hne := List.lookup_eq_none_iff.1 h entry hentry
  simp at hne

/-- A model of a new name takes its turn: one stand-in more if its structure came before. -/
theorem Seen.collapsed_process (h : Seen front d) (hnew : m.name ∉ front.map Model.name)
    (hcount : d.collapsed = repeats front) (hrun : d.process? m = some (d', m')) :
    d'.collapsed = repeats (front ++ [m]) := by
  rw [repeats_concat, ← hcount]
  rw [process?] at hrun
  cases hkey : m.structuralKey? with
  | none => simp [hkey] at hrun
  | some key =>
    simp only [hkey, Option.bind_eq_bind, Option.bind_some, h.lookup hkey] at hrun
    cases hlike : firstLike? front m with
    | none =>
      simp only [hlike, Option.map_none, Option.pure_def, Option.some.injEq, Prod.mk.injEq] at hrun
      obtain ⟨rfl, _⟩ := hrun
      rfl
    | some c =>
      simp only [hlike, Option.map_some, Option.pure_def, Option.some.injEq, Prod.mk.injEq] at hrun
      obtain ⟨rfl, _⟩ := hrun
      have hnone : d.standInOf? m.name = none := by
        refine Option.eq_none_iff_forall_ne_some.2 fun canonical hsome => ?_
        obtain ⟨m', _, hcollapses, hname, _⟩ := h.standIn _ _ hsome
        exact hnew (hname ▸ List.mem_map_of_mem hcollapses.mem.1)
      show (Entries.put m.name c.name d.standIn).length = d.standIn.length + _
      rw [Entries.put_of_not_mem (not_mem_keys_of_standInOf? hnone), List.length_append]
      rfl

theorem Seen.collapsed_processAll (h : Seen front d)
    (hnames : ((front ++ ms).map Model.name).Nodup) (hcount : d.collapsed = repeats front)
    (hrun : d.processAll? ms = some (d', out)) : d'.collapsed = repeats (front ++ ms) := by
  induction ms generalizing front d out with
  | nil =>
    simp only [processAll?, Option.some.injEq, Prod.mk.injEq] at hrun
    obtain ⟨rfl, _⟩ := hrun
    rwa [List.append_nil]
  | cons m rest ih =>
    simp only [processAll?, Option.bind_eq_bind, Option.bind_eq_some_iff, Option.pure_def,
      Option.some.injEq, Prod.exists, Prod.mk.injEq] at hrun
    obtain ⟨d₁, m', hm, d₂, others, hrest, rfl, _⟩ := hrun
    have hnew : m.name ∉ front.map Model.name := by
      rw [List.map_append, List.map_cons] at hnames
      intro hmem
      exact (List.nodup_append.1 hnames).2.2 _ hmem _ List.mem_cons_self rfl
    have hsplit : front ++ m :: rest = front ++ [m] ++ rest := by simp
    rw [hsplit] at hnames ⊢
    exact ih (h.process hm).1 hnames (h.collapsed_process hnew hcount hm) hrest

end Count

/-! ### Redirecting -/

/-- Each type of a model gets the name that stands in for its own. -/
theorem redirect_renames (d : Deduplicator) (m : Model) :
    List.Forall₂ (fun t t' => t'.name = (d.standInOf? t.name).getD t.name) m.allTypes
      (d.redirect m).allTypes :=
  (m.renameTypes_renames ()).names fun _ _ => rfl

theorem redirect_of_forall {d : Deduplicator} {m : Model}
    (h : ∀ t ∈ m.allTypes, d.standInOf? t.name = none) : d.redirect m = m := by
  refine m.renameTypes_of_forall () fun t ht _ => ?_
  show (d.standInOf? t.name).getD t.name = t.name
  rw [h t ht, Option.getD_none]

end Deduplicator

open Deduplicator

/-- **Types are redirected once, and backwards.** Let models of different names take their turns,
and redirect the types of what is written in their place. A model is written as it is if and only if
none before it has its structure, or it is an enumeration, or it has nothing of its own and its one
base is the first of its structure. It gets no stand-in if and only if none before it has its
structure; otherwise it is written as a duplicate of the first that has, which stands in for it.
There are as many stand-ins as models that come after one of their structure. No stand-in has a
stand-in, so no type names a duplicate any more, and redirecting again changes nothing. A type that
named the model of some turn names the model of that turn or of an earlier one. -/
theorem duplicates_redirected {models out : List Model} {d : Deduplicator}
    (hnames : (models.map Model.name).Nodup) (hrun : processAll? {} models = some (d, out)) :
    (∀ i m, models[i]? = some m →
        (out[i]? = some m ↔
          (∀ c ∈ models.take i, c.structuralKey? ≠ m.structuralKey?) ∨ m.kind = .enumeration ∨
            ∃ c, firstLike? (models.take i) m = some c ∧ m.IsBareSubclassOf c.name) ∧
        (d.standInOf? m.name = none ↔
          ∀ c ∈ models.take i, c.structuralKey? ≠ m.structuralKey?) ∧
        ∀ c, firstLike? (models.take i) m = some c →
          out[i]? = some (m.asDuplicateOf c.name) ∧ d.standInOf? m.name = some c.name) ∧
      out.length = models.length ∧ d.collapsed = repeats models ∧
      (∀ name canonical, d.standInOf? name = some canonical → d.standInOf? canonical = none) ∧
      (∀ m ∈ out.map d.redirect, ∀ t ∈ m.allTypes, d.standInOf? t.name = none) ∧
      (out.map d.redirect).map d.redirect = out.map d.redirect ∧
      ∀ m ∈ out, List.Forall₂ (fun t t' => ∀ (j : Nat) (c : Model),
          models[j]? = some c → t.name = c.name →
            ∃ k ≤ j, ∃ c' : Model, models[k]? = some c' ∧ t'.name = c'.name)
        m.allTypes (d.redirect m).allTypes := by
  obtain ⟨hseen, rfl⟩ := seen_nil.processAll hrun
  have hseen : Seen models d := hseen
  have hnone : ∀ m ∈ (inPlaces [] models).map d.redirect, ∀ t ∈ m.allTypes,
      d.standInOf? t.name = none := by
    intro _ hm t' ht'
    obtain ⟨m, _, rfl⟩ := List.mem_map.1 hm
    obtain ⟨t, _, hname⟩ := exists_of_mem_right (d.redirect_renames m) ht'
    cases hsome : d.standInOf? t.name with
    | none => rw [hname, hsome, Option.getD_none, hsome]
    | some canonical =>
      rw [hname, hsome, Option.getD_some, hseen.standInOf?_standIn hnames hsome]
  refine ⟨fun i m hm => ?_, ?_, seen_nil.collapsed_processAll hnames rfl hrun,
    fun name canonical => hseen.standInOf?_standIn hnames, hnone, ?_, fun m _ => ?_⟩
  · rw [getElem?_inPlaces hm, hseen.standInOf?_eq hnames hm, ← firstLike?_eq_none_iff, inPlace]
    cases firstLike? (models.take i) m with
    | none => simp
    | some c => simp [Model.asDuplicateOf_eq_self_iff]
  · simpa using congrArg List.length (names_inPlaces [] models)
  · refine (List.map_congr_left fun m hm => ?_).trans (List.map_id _)
    exact redirect_of_forall (hnone m hm)
  · refine (d.redirect_renames m).imp fun t t' hname j c hc ht => ?_
    obtain ⟨k, hk, c', hc', hstand⟩ := hseen.exists_turn_of_standIn hnames hc
    exact ⟨k, hk, c', hc', by rw [hname, ht, hstand]⟩

/-- A class whose field is a list of some type. -/
def listModel (name item : String) : Model where
  name := name
  fields := [{ name := "items", type := .generic "List" [{ name := item }] }]

/-- Two enumerations with one structure, and two lists of the second one. -/
theorem duplicates_redirected_in_palette :
    let models := [redModel "Color" .enumeration, redModel "Colour" .enumeration,
      listModel "Palette" "Colour", listModel "Swatch" "Colour"]
    ∃ d out, (models.map Model.name).Nodup ∧ processAll? {} models = some (d, out) ∧
      d.collapsed = 2 ∧
      (out.map d.redirect).map (fun m => m.allTypes.map DataType.name) =
        [["str"], ["str"], ["List", "Color"], []] ∧
      d.standInOf? "Swatch" = some "Palette" ∧ d.standInOf? "Palette" = none ∧
      (out.map d.redirect).map d.redirect = out.map d.redirect := by
  intro models
  have hnames : (models.map Model.name).Nodup := by decide
  have hdone : (processAll? {} models).map (fun done =>
      ((done.2.map done.1.redirect).map fun m => m.allTypes.map DataType.name,
        done.1.standInOf? "Swatch")) =
      some ([["str"], ["str"], ["List", "Color"], []], some "Palette") := by decide +kernel
  have hrepeats : repeats models = 2 := by decide +kernel
  obtain ⟨⟨d, out⟩, hrun, hdone⟩ := Option.map_eq_some_iff.1 hdone
  obtain ⟨htypes, hswatch⟩ := Prod.mk.inj hdone
  obtain ⟨_, _, hcollapsed, hstand, _, hagain, _⟩ := duplicates_redirected hnames hrun
  exact ⟨d, out, hnames, hrun, hcollapsed.trans hrepeats, htypes, hswatch,
    hstand _ _ hswatch, hagain⟩

/-- The second of two enumerations with one structure is written as it is, though it is not the
first: being written unchanged does not tell which models came first. -/
theorem written_unchanged_after_first :
    let models := [redModel "Color" .enumeration, redModel "Colour" .enumeration]
    (models.map Model.name).Nodup ∧
      ∃ d out, processAll? {} models = some (d, out) ∧
        ¬ ∀ i m, models[i]? = some m →
          (out[i]? = some m ↔ ∀ c ∈ models.take i, c.structuralKey? ≠ m.structuralKey?) := by
  intro models
  have hdone : (processAll? {} models).isSome = true := by decide +kernel
  obtain ⟨⟨d, out⟩, hrun⟩ := Option.isSome_iff_exists.1 hdone
  refine ⟨by decide, d, out, hrun, fun h => ?_⟩
  have hout := (seen_nil.processAll hrun).2
  have hsame : out[1]? = some (redModel "Colour" .enumeration) := by
    have hplace : models[1]? = some (redModel "Colour" .enumeration) := rfl
    rw [hout, getElem?_inPlaces hplace, inPlace]
    cases firstLike? (models.take 1) (redModel "Colour" .enumeration) with
    | none => rfl
    | some c => rfl
  exact (h 1 _ rfl).1 hsame (redModel "Color" .enumeration) (by simp [models])
    (by decide +kernel)

end Bindery
