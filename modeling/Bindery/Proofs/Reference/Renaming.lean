import Mathlib.Data.List.Forall2
import Mathlib.Data.List.Induction
import Bindery.Proofs.Model.Traversal
import Bindery.Proofs.Reference.LocalNames
import Bindery.Reference.Resolver

/-! What renaming the types of one model comes to.

Once it is settled which local name each location has, nothing about the renaming of a
model depends on the order in which names were asked for: a type is called `textOf`, and a
reference of the model ends where `carry` takes it. A reference is not replaced once but
goes through all types in order, and each one whose full name it is at that moment gives
it its own new name; so a reference that was renamed to what is also the full name of a
later type is renamed again. `Tracks` says that the state of a renaming is this picture up
to some type, `rename_tracks` is the step and `renames_tracks` the run. -/
namespace Bindery
open LocalNames

/-- Whatever stands in the second of two lists that belong together has a partner. -/
theorem exists_of_mem_right {α β : Type} {R : α → β → Prop} {as : List α} {bs : List β}
    (h : List.Forall₂ R as bs) {b : β} (hb : b ∈ bs) : ∃ a ∈ as, R a b := by
  induction h with
  | nil => cases hb
  | cons hr _ ih =>
    rcases List.mem_cons.1 hb with rfl | hb
    · exact ⟨_, List.mem_cons_self, hr⟩
    · obtain ⟨a, ha, hab⟩ := ih hb
      exact ⟨a, List.mem_cons_of_mem _ ha, hab⟩

theorem exists_of_mem_left {α β : Type} {R : α → β → Prop} {as : List α} {bs : List β}
    (h : List.Forall₂ R as bs) {a : α} (ha : a ∈ as) : ∃ b ∈ bs, R a b := by
  have h' : List.Forall₂ (flip R) bs as := List.Forall₂.flip h
  exact exists_of_mem_right h' ha

theorem map_eq_map_of_forall₂ {α β γ : Type} {R : α → β → Prop} {f : α → γ} {g : β → γ}
    {as : List α} {bs : List β} (h : List.Forall₂ R as bs)
    (hfg : ∀ a ∈ as, ∀ b, R a b → f a = g b) : as.map f = bs.map g := by
  induction h with
  | nil => rfl
  | @cons a b _ _ hab _ ih =>
    rw [List.map_cons, List.map_cons, hfg a List.mem_cons_self b hab,
      ih fun a' ha' => hfg a' (List.mem_cons_of_mem a ha')]

namespace UnitScope

/-- How a unit imports what a type means; none for a type that names no namespace or the
unit's own. -/
def reach? (scope : UnitScope) (t : DataType) : Option RelativeImport :=
  if t.isModular then relative? scope.moduleName t.fullName else none

/-- What a type is called in a unit with these local names. -/
def textOf (scope : UnitScope) (names : LocalNames) (t : DataType) : String :=
  match scope.reach? t with
  | none => t.name
  | some i => if i.member then names.nameAt i else names.nameAt i ++ "." ++ t.name

/-- Where a reference ends when types are renamed one after the other. -/
def carry (scope : UnitScope) (names : LocalNames) (ts : List DataType) (name : String) : String :=
  ts.foldl (fun name t => if name = t.fullName then scope.textOf names t else name) name

variable {scope : UnitScope} {names : LocalNames} {ts : List DataType} {t : DataType}

theorem reach?_eq_some_iff {i : RelativeImport} :
    scope.reach? t = some i ↔ t.isModular ∧ relative? scope.moduleName t.fullName = some i := by
  rw [reach?]
  split
  · next hmod => simp [hmod]
  · next hmod => simp [hmod]

theorem textOf_of_reach?_eq_none (names : LocalNames) (h : scope.reach? t = none) :
    scope.textOf names t = t.name := by
  simp [textOf, h]

theorem fullName_of_not_isModular (h : t.isModular = false) : t.fullName = t.name := by
  rw [DataType.fullName]
  split
  · rw [if_neg (by simp [h])]
  · rfl

theorem textOf_of_not_isModular (names : LocalNames) (h : t.isModular = false) :
    scope.textOf names t = t.fullName := by
  rw [textOf_of_reach?_eq_none names (by simp [reach?, h]), fullName_of_not_isModular h]

theorem carry_concat (name : String) :
    scope.carry names (ts ++ [t]) name =
      if scope.carry names ts name = t.fullName then scope.textOf names t
      else scope.carry names ts name := by
  rw [carry, List.foldl_append]
  rfl

theorem carry_cons (name : String) :
    scope.carry names (t :: ts) name =
      scope.carry names ts (if name = t.fullName then scope.textOf names t else name) :=
  rfl

/-- A text stays where it is if the types that have it for a full name have it for a text. -/
theorem carry_text {text : String}
    (h : ∀ u ∈ ts, u.fullName = text → scope.textOf names u = text) :
    scope.carry names ts text = text := by
  induction ts with
  | nil => rfl
  | cons u ts ih =>
    obtain ⟨hu, hts⟩ := List.forall_mem_cons.1 h
    rw [carry_cons, ite_eq_right_iff.2 fun he => hu he.symm]
    exact ih hts

/-- The full name of a type ends at its text, if types that have the one or the other for
a full name have that text, or keep their name. -/
theorem carry_fullName (ht : t ∈ ts)
    (hfull : ∀ u ∈ ts, u.fullName = t.fullName →
      scope.textOf names u = scope.textOf names t ∨ scope.textOf names u = t.fullName)
    (htext : ∀ u ∈ ts, u.fullName = scope.textOf names t →
      scope.textOf names u = scope.textOf names t) :
    scope.carry names ts t.fullName = scope.textOf names t := by
  induction ts with
  | nil => cases ht
  | cons u ts ih =>
    obtain ⟨hu, hfull⟩ := List.forall_mem_cons.1 hfull
    obtain ⟨_, htext⟩ := List.forall_mem_cons.1 htext
    rw [carry_cons]
    by_cases hdone : (if t.fullName = u.fullName then scope.textOf names u else t.fullName) =
        scope.textOf names t
    · rw [hdone]
      exact carry_text htext
    -- Nothing has changed yet, so the type itself is still to come.
    · have hsame : (if t.fullName = u.fullName then scope.textOf names u else t.fullName) =
          t.fullName := by
        split
        · next he =>
          rw [if_pos he] at hdone
          exact (hu he.symm).resolve_left hdone
        · rfl
      have hlater : t ∈ ts := by
        refine (List.mem_cons.1 ht).resolve_left ?_
        rintro rfl
        exact hdone (if_pos rfl)
      rw [hsame]
      exact ih hlater hfull htext

/-- A full name that a type of the list has does not stay: it becomes the text of a type
that names a namespace. -/
theorem exists_carry_fullName (scope : UnitScope) (names : LocalNames) (ht : t ∈ ts)
    (hmod : t.isModular) :
    ∃ u ∈ ts, u.isModular ∧ scope.carry names ts t.fullName = scope.textOf names u := by
  suffices h : (t ∉ ts ∧ scope.carry names ts t.fullName = t.fullName) ∨
      ∃ u ∈ ts, u.isModular ∧ scope.carry names ts t.fullName = scope.textOf names u from
    h.resolve_left fun h => h.1 ht
  clear ht
  induction ts using List.reverseRecOn with
  | nil => exact .inl ⟨List.not_mem_nil, rfl⟩
  | append_singleton ts u ih =>
    have hlast : u ∈ ts ++ [u] := by simp
    rw [carry_concat]
    by_cases hu : u.isModular
    · split
      · exact .inr ⟨u, hlast, hu, rfl⟩
      · next hne =>
        rcases ih with ⟨hnot, he⟩ | ⟨v, hv, hrest⟩
        · refine .inl ⟨?_, he⟩
          rw [List.mem_append, List.mem_singleton, not_or]
          exact ⟨hnot, fun e => hne (e ▸ he)⟩
        · exact .inr ⟨v, List.mem_append_left _ hv, hrest⟩
    -- A type that names no namespace takes its own name to itself.
    · rw [textOf_of_not_isModular names (by simpa using hu), ite_eq_right_iff.2 Eq.symm]
      rcases ih with ⟨hnot, he⟩ | ⟨v, hv, hrest⟩
      · refine .inl ⟨?_, he⟩
        rw [List.mem_append, List.mem_singleton, not_or]
        exact ⟨hnot, fun e => hu (e ▸ hmod)⟩
      · exact .inr ⟨v, List.mem_append_left _ hv, hrest⟩

/-- Without an index nothing is known to be made in the unit. -/
theorem madeHere_eq_false (h : scope.index = []) : scope.madeHere t = false := by
  have hnone : t.origin.bind scope.index.find? = none := by
    cases t.origin with
    | none => rfl
    | some path => simp [ReferenceIndex.find?, h]
  rw [madeHere, hnone]

end UnitScope

namespace Renaming
open UnitScope
variable {scope : UnitScope} {names : LocalNames} {refs : SortedSet String}
  {ts ts' : List DataType} {t : DataType} {r r' : Renaming} {i : RelativeImport}

/-! ### The table of local names during a renaming -/

theorem nameOf_localNames (r : Renaming) (i : RelativeImport) :
    (r.nameOf i).1.localNames = r.localNames ∨
      (r.nameOf i).1.localNames = (r.localNames.add i).1 := by
  rw [nameOf]
  split
  · exact .inl rfl
  · exact .inr rfl

/-- A renamed type asks for no name or for one. -/
theorem rename_localNames (scope : UnitScope) (r : Renaming) (t : DataType) :
    (rename scope r t).1.localNames = r.localNames ∨
      ∃ i, (rename scope r t).1.localNames = (r.localNames.add i).1 := by
  have hreplace : ∀ (r : Renaming) old new, (r.replace old new).localNames = r.localNames := by
    intro r old new
    rw [replace]
    split <;> rfl
  rw [rename]
  split
  · exact .inl rfl
  · split
    · exact .inl rfl
    · simp only [hreplace]
      split
      · exact .inl rfl
      · next i _ => exact (nameOf_localNames r i).imp_right fun h => ⟨i, h⟩

theorem extends_rename (scope : UnitScope) (r : Renaming) (t : DataType) :
    r.localNames.Extends (rename scope r t).1.localNames := by
  rcases rename_localNames scope r t with h | ⟨i, h⟩ <;> rw [h]
  · exact .refl _
  · exact extends_add _ i

theorem separate_rename {reserved : List String} (h : r.localNames.Separate reserved) :
    (rename scope r t).1.localNames.Separate reserved := by
  rcases rename_localNames scope r t with he | ⟨i, he⟩ <;> rw [he]
  · exact h
  · exact h.add i

theorem extends_renames (h : DataType.Renames (rename scope) r ts r' ts') :
    r.localNames.Extends r'.localNames := by
  induction h with
  | nil => exact .refl _
  | cons _ _ _ _ _ ih => exact (extends_rename _ _ _).trans ih

theorem separate_renames {reserved : List String}
    (h : DataType.Renames (rename scope) r ts r' ts') (hr : r.localNames.Separate reserved) :
    r'.localNames.Separate reserved := by
  induction h with
  | nil => exact hr
  | cons _ _ _ _ _ ih => exact ih (separate_rename hr)

/-! ### What a renaming has done so far -/

/-- After the types `ts` the state knows the locations they asked for, the types that are
behind the new names, and the references where they were carried. -/
structure Tracks (scope : UnitScope) (names : LocalNames) (refs : SortedSet String)
    (ts : List DataType) (r : Renaming) : Prop where
  extends_names : r.localNames.Extends names
  chosen : ∀ key given, r.chosen.lookup key = some given →
    names.assigned.lookup key = some (given.getD key.2)
  asked : ∀ key, (r.chosen.lookup key).isSome ↔ ∃ t ∈ ts, ∃ i, scope.reach? t = some i ∧ i.key = key
  target : ∀ text full i, r.targets.lookup text = some (full, i) →
    ∃ t ∈ ts, t.fullName = full ∧ scope.reach? t = some i ∧ scope.textOf names t = text
  targeted : ∀ t ∈ ts, (scope.reach? t).isSome →
    (r.targets.lookup (scope.textOf names t)).isSome
  references : ∀ text, text ∈ r.references ↔ ∃ name ∈ refs, scope.carry names ts name = text

theorem Tracks.assigned (h : Tracks scope names refs ts r) (ht : t ∈ ts)
    (hi : scope.reach? t = some i) : names.assigned.lookup i.key = some (names.nameAt i) := by
  obtain ⟨given, hgiven⟩ := Option.isSome_iff_exists.1 ((h.asked i.key).2 ⟨t, ht, i, hi, rfl⟩)
  have hname := h.chosen _ _ hgiven
  rw [nameAt, hname, Option.getD_some]

theorem tracks_start (h : r.localNames.Extends names) :
    Tracks scope names refs [] ⟨r.localNames, refs, [], []⟩ where
  extends_names := h
  chosen := fun _ _ h => by cases h
  asked := fun _ => by simp
  target := fun _ _ _ h => by cases h
  targeted := fun _ h => absurd h List.not_mem_nil
  references := fun _ => by simp [carry]

theorem mem_replace {old new text : String} :
    text ∈ (r.replace old new).references ↔
      ∃ name ∈ r.references, (if name = old then new else name) = text := by
  rw [replace]
  split
  · next hold =>
    simp only [SortedSet.mem_insert, SortedSet.mem_erase]
    constructor
    · rintro (rfl | ⟨ht, hne⟩)
      · exact ⟨old, hold, by simp⟩
      · exact ⟨text, ht, by simp [hne]⟩
    · rintro ⟨name, hname, rfl⟩
      by_cases he : name = old
      · exact .inl (by simp [he])
      · exact .inr (by simp [he, hname])
  · next hold =>
    constructor
    -- The old name is not there, so no name changes.
    · intro ht
      refine ⟨text, ht, if_neg ?_⟩
      rintro rfl
      exact hold ht
    · rintro ⟨name, hname, rfl⟩
      have hne : name ≠ old := by
        rintro rfl
        exact hold hname
      rw [if_neg hne]
      exact hname

/-- The references after one more type. -/
theorem carried_concat {text : String}
    (h : ∀ text, text ∈ r.references ↔ ∃ name ∈ refs, scope.carry names ts name = text) :
    (∃ name ∈ r.references, (if name = t.fullName then scope.textOf names t else name) = text) ↔
      ∃ name ∈ refs, scope.carry names (ts ++ [t]) name = text := by
  constructor
  · rintro ⟨_, hmem, rfl⟩
    obtain ⟨name, hname, rfl⟩ := (h _).1 hmem
    exact ⟨name, hname, carry_concat name⟩
  · rintro ⟨name, hname, rfl⟩
    exact ⟨_, (h _).2 ⟨name, hname, rfl⟩, (carry_concat name).symm⟩

/-- A location that is asked for gets the name it has in the end, and is remembered. -/
theorem nameOf_spec (h : Tracks scope names refs ts r)
    (he : (r.nameOf i).1.localNames.Extends names) :
    (r.nameOf i).2 = names.nameAt i ∧ (r.nameOf i).1.references = r.references ∧
      (r.nameOf i).1.targets = r.targets ∧
      (∀ key given, (r.nameOf i).1.chosen.lookup key = some given →
        names.assigned.lookup key = some (given.getD key.2)) ∧
      ∀ key, ((r.nameOf i).1.chosen.lookup key).isSome ↔
        (r.chosen.lookup key).isSome ∨ key = i.key := by
  rw [nameOf] at he ⊢
  split at he
  · next given hgiven =>
    have hname : names.assigned.lookup i.key = some (given.getD i.name) := h.chosen _ _ hgiven
    refine ⟨by rw [nameAt, hname, Option.getD_some], rfl, rfl, h.chosen, fun key => ?_⟩
    exact ⟨.inl, fun hk => hk.elim id fun e => by rw [e, hgiven]; rfl⟩
  · next hnone =>
    have hname : names.assigned.lookup i.key = some (r.localNames.add i).2 :=
      he _ _ (lookup_add r.localNames i)
    refine ⟨by rw [nameAt, hname, Option.getD_some], rfl, rfl, fun key given hk => ?_,
      fun key => ?_⟩
    · rw [Entries.lookup_put] at hk
      split at hk
      · next hkey =>
        obtain rfl := Option.some.inj hk
        rw [hkey, hname]
        split
        · next hsame => simp [hsame, RelativeImport.key]
        · rfl
      · exact h.chosen key given hk
    · rw [Entries.lookup_put]
      split
      · next hkey => simp [hkey]
      · next hkey => simp [hkey]

theorem replace_eq (r : Renaming) (old new : String) :
    r.replace old new = { r with references := (r.replace old new).references } := by
  rw [replace]
  split <;> rfl

/-- A type that is not reached from elsewhere changes nothing but references. -/
theorem Tracks.concat_here (h : Tracks scope names refs ts r) (hreach : scope.reach? t = none)
    {references : SortedSet String}
    (href : ∀ text, text ∈ references ↔
      ∃ name ∈ refs, scope.carry names (ts ++ [t]) name = text) :
    Tracks scope names refs (ts ++ [t]) { r with references } where
  extends_names := h.extends_names
  chosen := h.chosen
  asked := fun key => by simp [h.asked, hreach, or_and_right, exists_or]
  target := fun text full i hk => by
    obtain ⟨u, hu, hrest⟩ := h.target text full i hk
    exact ⟨u, List.mem_append_left _ hu, hrest⟩
  targeted := fun u hu hsome => by
    rcases List.mem_append.1 hu with hu | hu
    · exact h.targeted u hu hsome
    · rw [List.mem_singleton.1 hu, hreach] at hsome
      cases hsome
  references := href

/-- A type that is reached from elsewhere stands behind its text. -/
theorem Tracks.concat_reached (h : Tracks scope names refs ts r) (hreach : scope.reach? t = some i)
    (he : (r.nameOf i).1.localNames.Extends names) {references : SortedSet String}
    (href : ∀ text, text ∈ references ↔
      ∃ name ∈ refs, scope.carry names (ts ++ [t]) name = text) :
    Tracks scope names refs (ts ++ [t])
      { (r.nameOf i).1 with
        targets := Entries.put (scope.textOf names t) (t.fullName, i) r.targets
        references } := by
  obtain ⟨_, _, _, hchosen, hasked⟩ := nameOf_spec h he
  have hlast : t ∈ ts ++ [t] := by simp
  refine ⟨he, hchosen, fun key => ?_, fun text full j hk => ?_, fun u hu hsome => ?_, href⟩
  · simp only [hasked, h.asked, List.mem_append, List.mem_singleton, or_and_right, exists_or,
      exists_eq_left, hreach, Option.some.injEq]
    exact or_congr_right ⟨fun e => ⟨i, rfl, e.symm⟩, fun ⟨_, hi, e⟩ => hi ▸ e.symm⟩
  · simp only [Entries.lookup_put] at hk
    split at hk
    · next htext =>
      cases hk
      exact ⟨t, hlast, rfl, hreach, htext.symm⟩
    · obtain ⟨u, hu, hrest⟩ := h.target text full j hk
      exact ⟨u, List.mem_append_left _ hu, hrest⟩
  · simp only [Entries.lookup_put]
    split
    · rfl
    · next htext =>
      rcases List.mem_append.1 hu with hu | hu
      · exact h.targeted u hu hsome
      · exact absurd (by rw [List.mem_singleton.1 hu]) htext

theorem rename_of_not_isModular (r : Renaming) (hmod : t.isModular = false) :
    rename scope r t = (r, t.name) := by
  simp [rename, hmod]

/-- A type of the unit's own namespace keeps its name, which takes its reference along. -/
theorem rename_of_here (r : Renaming) (hindex : scope.index = []) (hmod : t.isModular)
    (hi : relative? scope.moduleName t.fullName = none) :
    rename scope r t = (r.replace t.fullName t.name, t.name) := by
  simp [rename, hmod, madeHere_eq_false hindex, hi]

/-- A type of another namespace gets its text, and what it means is remembered. -/
theorem rename_of_reached (hindex : scope.index = []) (h : Tracks scope names refs ts r)
    (hreach : scope.reach? t = some i) (he : (rename scope r t).1.localNames.Extends names) :
    (r.nameOf i).1.localNames.Extends names ∧
      rename scope r t =
        (Renaming.replace
          { (r.nameOf i).1 with
            targets := Entries.put (scope.textOf names t) (t.fullName, i) r.targets }
          t.fullName (scope.textOf names t), scope.textOf names t) := by
  obtain ⟨hmod, hi⟩ := reach?_eq_some_iff.1 hreach
  have hrename : rename scope r t =
      ((r.imported t i).1.replace t.fullName (r.imported t i).2, (r.imported t i).2) := by
    simp [rename, hmod, madeHere_eq_false hindex, hi]
  have hnames : (r.nameOf i).1.localNames.Extends names := by
    rw [hrename, replace_eq] at he
    exact he
  obtain ⟨hname, _, htargets, _⟩ := nameOf_spec h hnames
  have htext : (r.imported t i).2 = scope.textOf names t := by
    simp [imported, textOf, hreach, hname]
  have himported : (r.imported t i).1 = { (r.nameOf i).1 with
      targets := Entries.put (scope.textOf names t) (t.fullName, i) r.targets } := by
    rw [← htext, ← htargets]
    rfl
  exact ⟨hnames, by rw [hrename, htext, himported]⟩

/-- **One type.** A type gets its text, and the state goes on to what it should be. -/
theorem rename_tracks (hindex : scope.index = []) (h : Tracks scope names refs ts r)
    (he : (rename scope r t).1.localNames.Extends names) :
    (rename scope r t).2 = scope.textOf names t ∧
      Tracks scope names refs (ts ++ [t]) (rename scope r t).1 := by
  cases hreach : scope.reach? t with
  | some i =>
    obtain ⟨hnames, hrename⟩ := rename_of_reached hindex h hreach he
    rw [hrename, replace_eq]
    refine ⟨rfl, h.concat_reached hreach hnames fun text => ?_⟩
    rw [mem_replace, (nameOf_spec h hnames).2.1]
    exact carried_concat h.references
  | none =>
    have htext := textOf_of_reach?_eq_none names hreach
    cases hmod : t.isModular with
    | false =>
      -- The name of the type is its full name, so no reference changes.
      rw [rename_of_not_isModular r hmod]
      refine ⟨htext.symm, h.concat_here hreach fun text => ?_⟩
      rw [← carried_concat h.references, htext, fullName_of_not_isModular hmod]
      simp only [ite_eq_right_iff.2 Eq.symm, exists_eq_right]
    | true =>
      have hi : relative? scope.moduleName t.fullName = none := by simpa [reach?, hmod] using hreach
      rw [rename_of_here r hindex hmod hi, replace_eq]
      refine ⟨htext.symm, h.concat_here hreach fun text => ?_⟩
      rw [mem_replace, ← htext]
      exact carried_concat h.references

/-- **All types of a model**, one after the other. -/
theorem renames_tracks (hindex : scope.index = []) {before : List DataType}
    (h : DataType.Renames (rename scope) r ts r' ts') (hr : Tracks scope names refs before r)
    (he : r'.localNames.Extends names) :
    Tracks scope names refs (before ++ ts) r' ∧
      List.Forall₂ (fun t t' => t'.name = scope.textOf names t ∧ t'.home = t.home ∧
        t'.container = t.container) ts ts' := by
  induction h generalizing before with
  | nil => exact ⟨by simpa using hr, .nil⟩
  | @cons s s' t t' ts ts' hname hhome _ hcontainer hrest ih =>
    obtain ⟨htext, htracks⟩ := rename_tracks hindex hr ((extends_renames hrest).trans he)
    obtain ⟨hend, hall⟩ := ih htracks he
    exact ⟨by simpa using hend, .cons ⟨hname.trans htext, hhome, hcontainer⟩ hall⟩

end Renaming

end Bindery
