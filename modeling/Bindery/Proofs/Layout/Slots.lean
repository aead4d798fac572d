import Bindery.Proofs.Layout.Places

/-! Which places a package has, and in which order they stand.

If no segment is `__init__`, what stands where can be read off the namespaces (`Due`): each
namespace with models has one unit, each one above it that has none has a placeholder, and
there is nothing else (`slots_exact`). The init file of a directory is taken before anything
that lies in the directory, and a place that is taken stays where it is, so the files on the
way to a file stand in front of it (`Guarded`). -/
namespace Bindery

theorem Entries.mem_of_mem_put {κ α : Type} [DecidableEq κ] {key : κ} {value : α}
    {entries : Entries κ α} {e : κ × α} (h : e ∈ put key value entries) :
    e = (key, value) ∨ e ∈ entries := by
  induction entries with
  | nil => exact .inl (by simpa [put] using h)
  | cons entry rest ih =>
    rw [put] at h
    split at h
    · exact (List.mem_cons.1 h).imp_right (List.mem_cons_of_mem _)
    · cases List.mem_cons.1 h with
      | inl he => exact .inr (by simp [he])
      | inr h => exact (ih h).imp_right (List.mem_cons_of_mem _)

namespace Partition

/-- What models make a package have for a namespace, and where: a unit for a namespace with
models, and an empty init file for one without, if others lie below it. -/
inductive Due (models : List Model) : List String → UnitKey → Slot → Prop where
  | root : [] ∈ models.map Model.path →
      Due models [] UnitKey.root
        (.planned ⟨UnitKey.root, [], .rootInit, modelsAt models []⟩)
  | package {path below : List String} : path ∈ models.map Model.path → path ≠ [] →
      below ∈ models.map Model.path → path <+: below → path ≠ below →
      Due models path (UnitKey.init path)
        (.planned ⟨UnitKey.init path, path, .packageInit, modelsAt models path⟩)
  | leaf {parents : List String} {last : String} : parents ++ [last] ∈ models.map Model.path →
      (∀ below ∈ models.map Model.path, parents ++ [last] <+: below → parents ++ [last] = below) →
      Due models (parents ++ [last]) (UnitKey.leaf parents last)
        (.planned ⟨UnitKey.leaf parents last, parents ++ [last], .leaf,
          modelsAt models (parents ++ [last])⟩)
  | placeholder {path below : List String} : path ∉ models.map Model.path →
      below ∈ models.map Model.path → path <+: below →
      Due models path (UnitKey.init path) .placeholder

/-! ### Namespaces above others -/

theorem mem_ancestors_iff_isPrefix {p q : List String} : p ∈ ancestors q ↔ p <+: q ∧ p ≠ q := by
  rw [mem_ancestors]
  constructor
  · rintro ⟨s, below, rfl⟩
    exact ⟨List.prefix_append _ _, by simp⟩
  · rintro ⟨⟨rest, rfl⟩, hne⟩
    cases rest with
    | nil => simp at hne
    | cons s below => exact ⟨s, below, rfl⟩

theorem ancestors_concat (path : List String) (s : String) :
    ancestors (path ++ [s]) = ancestors path ++ [path] := by
  have hshort : ∀ depth ∈ List.range path.length,
      (path ++ [s]).take depth = path.take depth := by
    intro depth hdepth
    exact List.take_append_of_le_length (by have := List.mem_range.1 hdepth; omega)
  rw [ancestors, List.length_append, List.length_singleton, List.range_succ, List.map_append,
    List.map_congr_left hshort, ancestors]
  simp

theorem addAncestors_concat (slots : Partition) (path : List String) (s : String) :
    slots.addAncestors (path ++ [s]) =
      Entries.putNew (UnitKey.init path) .placeholder (slots.addAncestors path) := by
  rw [addAncestors, ancestors_concat, List.foldl_append]
  rfl

/-! ### Files behind the init files of their directories -/

/-- The init files of the directories on the way to a file stand in front of it. -/
def Guarded (keys : List UnitKey) : Prop :=
  ∀ dirs file, dirs ++ [file] ∈ keys → ∀ above, above <+: dirs →
    UnitKey.init above ≠ dirs ++ [file] → [UnitKey.init above, dirs ++ [file]].Sublist keys

section Order
variable {slots : Partition} {path : List String}

/-- A file may come last if the init files on the way to it are there. -/
theorem Guarded.put (h : Guarded (Entries.keys slots)) {dirs : List String} {file : String}
    (habove : ∀ above, above <+: dirs → UnitKey.init above ≠ dirs ++ [file] →
      UnitKey.init above ∈ Entries.keys slots) (slot : Slot) :
    Guarded (Entries.keys (Entries.put (dirs ++ [file]) slot slots)) := by
  rw [Entries.keys_put]
  split
  · exact h
  · intro dirs' file' hmem above hpre hne
    cases List.mem_append.1 hmem with
    | inl hold => exact (h dirs' file' hold above hpre hne).trans (List.sublist_append_left _ _)
    | inr hnew =>
      rw [List.mem_singleton] at hnew
      obtain ⟨rfl, hfile⟩ := List.append_inj' hnew rfl
      obtain rfl := List.singleton_inj.1 hfile
      have hinit := List.singleton_sublist.2 (habove above hpre hne)
      exact hinit.append (List.Sublist.refl _)

theorem guarded_addAncestors (h : Guarded (Entries.keys slots)) (path : List String) :
    Guarded (Entries.keys (slots.addAncestors path)) := by
  induction path using List.reverseRecOn with
  | nil => exact h
  | append_singleton path s ih =>
    rw [addAncestors_concat, Entries.putNew]
    split
    · exact ih
    · refine ih.put (fun above hpre hne => ?_) .placeholder
      have hanc : above ∈ ancestors path :=
        mem_ancestors_iff_isPrefix.2 ⟨hpre, fun he => hne (he ▸ rfl)⟩
      exact mem_keys_addAncestors.2 (.inr ⟨above, hanc, rfl⟩)

/-- With the init files above it taken, a namespace can take its place. -/
theorem guarded_add (models : List Model) (h : Guarded (Entries.keys slots)) (path : List String) :
    Guarded (Entries.keys (add models slots path)) := by
  have hbefore := guarded_addAncestors h path
  cases List.eq_nil_or_concat' path with
  | inl hroot =>
    subst hroot
    have habove : ∀ above : List String, above <+: [] →
        UnitKey.init above ≠ [] ++ [UnitKey.initFile] →
        UnitKey.init above ∈ Entries.keys (slots.addAncestors []) := by
      intro above hpre hne
      rw [List.prefix_nil.1 hpre] at hne
      exact absurd rfl hne
    exact hbefore.put habove _
  | inr hconcat =>
    obtain ⟨parents, last, rfl⟩ := hconcat
    have hlast : (parents ++ [last]).getLast? = some last := List.getLast?_concat
    rw [add, placeOf, hlast]
    simp only
    split
    · next hhas =>
      rw [Entries.keys_put, if_pos (Entries.has_eq_true.1 hhas)]
      exact hbefore
    · rw [List.dropLast_concat]
      refine hbefore.put (fun above hpre hne => ?_) _
      have hanc : above ∈ ancestors (parents ++ [last]) := by
        refine mem_ancestors_iff_isPrefix.2 ⟨hpre.trans (List.prefix_append _ _), fun he => ?_⟩
        have hlength := hpre.length_le
        rw [he, List.length_append, List.length_singleton] at hlength
        omega
      exact mem_keys_addAncestors.2 (.inr ⟨above, hanc, rfl⟩)

theorem guarded_ofModels (models : List Model) : Guarded (Entries.keys (ofModels models)) := by
  refine List.foldlRecOn (paths models) (add models)
    (motive := fun slots => Guarded (Entries.keys slots)) ?_ fun slots h path _ =>
      guarded_add models h path
  exact fun _ _ hmem => absurd hmem List.not_mem_nil

/-! ### Placeholders -/

theorem mem_addAncestors_placeholder {key : UnitKey}
    (h : (key, Slot.placeholder) ∈ slots.addAncestors path) :
    (key, Slot.placeholder) ∈ slots ∨ ∃ above ∈ ancestors path, UnitKey.init above = key := by
  induction path using List.reverseRecOn with
  | nil => exact .inl h
  | append_singleton path s ih =>
    have hearlier : (key, Slot.placeholder) ∈ slots.addAncestors path →
        (key, Slot.placeholder) ∈ slots ∨
          ∃ above ∈ ancestors (path ++ [s]), UnitKey.init above = key := by
      intro hmem
      cases ih hmem with
      | inl hold => exact .inl hold
      | inr hnew =>
        obtain ⟨above, hanc, he⟩ := hnew
        exact .inr ⟨above, by simp [ancestors_concat, hanc], he⟩
    rw [addAncestors_concat, Entries.putNew] at h
    split at h
    · exact hearlier h
    · cases Entries.mem_of_mem_put h with
      | inl he => exact .inr ⟨path, by simp [ancestors_concat], (Prod.mk.inj he).1.symm⟩
      | inr hmem => exact hearlier hmem

/-- A placeholder is the init file of a namespace above one with models. -/
theorem exists_below_of_placeholder {models : List Model} {key : UnitKey}
    (h : (key, Slot.placeholder) ∈ ofModels models) :
    ∃ below ∈ paths models, ∃ above ∈ ancestors below, UnitKey.init above = key := by
  revert h
  refine List.foldlRecOn (paths models) (add models) (motive := fun slots =>
    (key, Slot.placeholder) ∈ slots →
      ∃ below ∈ paths models, ∃ above ∈ ancestors below, UnitKey.init above = key) ?_ ?_
  · exact fun h => absurd h List.not_mem_nil
  · intro slots ih path hpath h
    cases Entries.mem_of_mem_put h with
    | inl he => cases he
    | inr h =>
      cases mem_addAncestors_placeholder h with
      | inl hold => exact ih hold
      | inr hnew => exact ⟨path, hpath, hnew⟩

end Order

/-! ### What is due -/

section Units
variable {all : List (List String)} {models : List Model} {path : List String}

theorem placeAmong_of_below (hne : path ≠ []) (hbelow : ∃ q ∈ all, path ∈ ancestors q) :
    placeAmong all path = (UnitKey.init path, .packageInit) := by
  obtain ⟨parents, last, rfl⟩ := (List.eq_nil_or_concat' path).resolve_left hne
  have hlast : (parents ++ [last]).getLast? = some last := List.getLast?_concat
  rw [placeAmong, hlast]
  exact if_pos hbelow

theorem placeAmong_of_none_below {parents : List String} {last : String}
    (hnone : ∀ q ∈ all, parents ++ [last] ∉ ancestors q) :
    placeAmong all (parents ++ [last]) = (UnitKey.leaf parents last, .leaf) := by
  have hlast : (parents ++ [last]).getLast? = some last := List.getLast?_concat
  have hbelow : ¬ ∃ q ∈ all, parents ++ [last] ∈ ancestors q := by simpa using hnone
  rw [placeAmong, hlast]
  simp only [if_neg hbelow, List.dropLast_concat]

/-- The unit of a namespace with models is due. -/
theorem due_unitAmong (hpath : path ∈ paths models) :
    Due models path (placeAmong (paths models) path).1
      (.planned (unitAmong models (paths models) path)) := by
  have hmodels := mem_paths.1 hpath
  by_cases hroot : path = []
  · subst hroot
    exact .root hmodels
  · by_cases hbelow : ∃ q ∈ paths models, path ∈ ancestors q
    · obtain ⟨q, hq, hanc⟩ := hbelow
      rw [unitAmong, placeAmong_of_below hroot ⟨q, hq, hanc⟩]
      obtain ⟨hpre, hne⟩ := mem_ancestors_iff_isPrefix.1 hanc
      exact .package hmodels hroot (mem_paths.1 hq) hpre hne
    · obtain ⟨parents, last, rfl⟩ := (List.eq_nil_or_concat' path).resolve_left hroot
      rw [unitAmong, placeAmong_of_none_below (by simpa using hbelow)]
      refine .leaf hmodels fun below hmem hpre => ?_
      by_contra hne
      exact hbelow ⟨below, mem_paths.2 hmem, mem_ancestors_iff_isPrefix.2 ⟨hpre, hne⟩⟩

/-- No other unit is due. -/
theorem unitAmong_of_due {key : UnitKey} {plan : UnitPlan} (h : Due models path key (.planned plan)) :
    path ∈ paths models ∧ unitAmong models (paths models) path = plan ∧ plan.key = key := by
  cases h with
  | root hmodels => exact ⟨mem_paths.2 hmodels, rfl, rfl⟩
  | package hmodels hroot hbelow hpre hne =>
    have hanc := mem_ancestors_iff_isPrefix.2 ⟨hpre, hne⟩
    have hplace := placeAmong_of_below hroot ⟨_, mem_paths.2 hbelow, hanc⟩
    exact ⟨mem_paths.2 hmodels, by rw [unitAmong, hplace], rfl⟩
  | leaf hmodels hnone =>
    have hnone : ∀ q ∈ paths models, _ ∉ ancestors q := fun q hq hanc =>
      (mem_ancestors_iff_isPrefix.1 hanc).2
        (hnone q (mem_paths.1 hq) (mem_ancestors_iff_isPrefix.1 hanc).1)
    have hplace := placeAmong_of_none_below hnone
    exact ⟨mem_paths.2 hmodels, by rw [unitAmong, hplace], rfl⟩

/-- Without a segment `__init__` no namespace is overtaken. -/
theorem not_overtaken (hinit : ∀ m ∈ models, "__init__" ∉ m.path) (hpath : path ∈ paths models) :
    ¬ Overtaken (paths models) path := by
  intro h
  obtain ⟨above, _, rfl⟩ := h.1
  obtain ⟨m, hm, he⟩ := List.mem_map.1 (mem_paths.1 hpath)
  exact hinit m hm (by simp [he])

theorem mem_ofModels_planned_iff (hinit : ∀ m ∈ models, "__init__" ∉ m.path) {key : UnitKey}
    {plan : UnitPlan} :
    (key, Slot.planned plan) ∈ ofModels models ↔ ∃ path, Due models path key (.planned plan) := by
  have hlaid := laid_ofModels models
  rw [← Entries.lookup_eq_some hlaid.nodup_keys]
  refine (hlaid.find?_eq_planned key plan).trans ⟨?_, ?_⟩
  · rintro ⟨path, hpath, _, rfl, rfl⟩
    exact ⟨path, due_unitAmong hpath⟩
  · rintro ⟨path, hdue⟩
    obtain ⟨hpath, hunit, hkey⟩ := unitAmong_of_due hdue
    exact ⟨path, hpath, not_overtaken hinit hpath, hunit, hkey⟩

/-- The init file of a namespace without models is the place of no unit. -/
theorem not_due_planned_init (hinit : ∀ m ∈ models, "__init__" ∉ m.path)
    (hnone : path ∉ models.map Model.path) (other : List String) (plan : UnitPlan) :
    ¬ Due models other (UnitKey.init path) (.planned plan) := by
  intro h
  obtain ⟨hother, rfl, hkey⟩ := unitAmong_of_due h
  have hplaced : (placeAmong (paths models) other).1 = UnitKey.init path := hkey
  cases place_cases (paths models) other with
  | inl hplace =>
    rw [hplace.2] at hplaced
    exact hnone (init_inj.1 hplaced ▸ mem_paths.1 hother)
  | inr hplace =>
    obtain ⟨parents, last, rfl, _, hplace⟩ := hplace
    rw [hplace] at hplaced
    have hfile := (List.append_inj' hplaced rfl).2
    obtain rfl := append_py_eq_initFile.1 (List.singleton_inj.1 hfile)
    obtain ⟨m, hm, he⟩ := List.mem_map.1 (mem_paths.1 hother)
    exact hinit m hm (by simp [he])

theorem mem_ofModels_placeholder_iff (hinit : ∀ m ∈ models, "__init__" ∉ m.path) {key : UnitKey} :
    (key, Slot.placeholder) ∈ ofModels models ↔ ∃ path, Due models path key .placeholder := by
  have hlaid := laid_ofModels models
  constructor
  · intro h
    obtain ⟨below, hbelow, path, hanc, rfl⟩ := exists_below_of_placeholder h
    obtain ⟨hpre, hne⟩ := mem_ancestors_iff_isPrefix.1 hanc
    refine ⟨path, .placeholder (fun hmodels => ?_) (mem_paths.1 hbelow) hpre⟩
    -- A namespace with models would have its unit there.
    have hplace : (placeAmong (paths models) path).1 = UnitKey.init path := by
      by_cases hroot : path = []
      · subst hroot
        rfl
      · rw [placeAmong_of_below hroot ⟨below, hbelow, hanc⟩]
    have hunit := (mem_ofModels_planned_iff hinit).2 ⟨path, due_unitAmong (mem_paths.2 hmodels)⟩
    rw [hplace, ← Entries.lookup_eq_some hlaid.nodup_keys] at hunit
    rw [← Entries.lookup_eq_some hlaid.nodup_keys, hunit] at h
    cases h
  · rintro ⟨path, hdue⟩
    cases hdue with
    | placeholder hnone hbelow hpre =>
      have hne : path ≠ _ := fun he => hnone (he ▸ hbelow)
      have hanc := mem_ancestors_iff_isPrefix.2 ⟨hpre, hne⟩
      have hkey := (hlaid.mem_keys_init path).2 (.inl ⟨_, mem_paths.2 hbelow, hanc⟩)
      obtain ⟨⟨key, slot⟩, hmem, rfl⟩ := List.mem_map.1 hkey
      cases slot with
      | placeholder => exact hmem
      | planned plan =>
        obtain ⟨other, hdue⟩ := (mem_ofModels_planned_iff hinit).1 hmem
        exact absurd hdue (not_due_planned_init hinit hnone other plan)

end Units

end Partition

open Bindery.Partition

/-- **What a package has.** If no segment of a namespace is `__init__`, no place is listed
twice, the places are exactly the units of the namespaces with models and the placeholders of
those above them without any, and the init file of each namespace above another one stands in
front of the place of that one. -/
theorem slots_exact (models : List Model) (hinit : ∀ m ∈ models, "__init__" ∉ m.path) :
    (Entries.keys (ofModels models)).Nodup ∧
      (∀ key slot, (key, slot) ∈ ofModels models ↔ ∃ path, Due models path key slot) ∧
      ∀ path key slot, Due models path key slot → ∀ above, above <+: path → above ≠ path →
        [UnitKey.init above, key].Sublist (Entries.keys (ofModels models)) := by
  have hslots : ∀ key slot, (key, slot) ∈ ofModels models ↔ ∃ path, Due models path key slot := by
    intro key slot
    cases slot with
    | placeholder => exact mem_ofModels_placeholder_iff hinit
    | planned plan => exact mem_ofModels_planned_iff hinit
  refine ⟨(laid_ofModels models).nodup_keys, hslots, fun path key slot hdue above hpre hne => ?_⟩
  have hkey : key ∈ Entries.keys (ofModels models) :=
    List.mem_map_of_mem ((hslots key slot).2 ⟨path, hdue⟩)
  have hguarded := guarded_ofModels models
  cases hdue with
  | root => exact absurd (List.prefix_nil.1 hpre) hne
  | package => exact hguarded path _ hkey above hpre fun he => hne (init_inj.1 he)
  | @leaf parents last hmodels =>
    obtain ⟨m, hm, he⟩ := List.mem_map.1 hmodels
    refine hguarded parents _ hkey above ?_ fun hsame => ?_
    · exact (List.prefix_concat_iff.1 hpre).resolve_left hne
    · have hfile := List.singleton_inj.1 (List.append_inj' hsame rfl).2
      obtain rfl := append_py_eq_initFile.1 hfile.symm
      exact hinit m hm (by simp [he])
  | placeholder => exact hguarded path _ hkey above hpre fun he => hne (init_inj.1 he)

/-- Models of `a` and of `a.b` below it, one of `x.y`, and one of the root: `x` has none and gets
a placeholder. -/
theorem slots_exact_nested :
    let models : List Model :=
      [{ name := "R" }, { name := "B", path := ["a", "b"] }, { name := "A", path := ["a"] },
        { name := "Y", path := ["x", "y"] }]
    (∀ m ∈ models, "__init__" ∉ m.path) ∧
      Entries.keys (ofModels models) =
        [["__init__.py"], ["x", "__init__.py"], ["x", "y.py"], ["a", "__init__.py"],
          ["a", "b.py"]] ∧
      (UnitKey.init ["x"], Slot.placeholder) ∈ ofModels models ∧
      [UnitKey.init ["a"], UnitKey.leaf ["a"] "b"].Sublist (Entries.keys (ofModels models)) := by
  intro models
  have hinit : ∀ m ∈ models, "__init__" ∉ m.path := by decide
  obtain ⟨_, hslots, horder⟩ := slots_exact models hinit
  refine ⟨hinit, by decide, (hslots _ _).2 ⟨["x"], ?_⟩, ?_⟩
  · have hbelow : ["x", "y"] ∈ models.map Model.path := by decide
    exact .placeholder (by decide) hbelow (by decide)
  · have hmodels : ["a"] ++ ["b"] ∈ models.map Model.path := by decide
    exact horder ["a", "b"] _ _ (.leaf hmodels (by decide)) ["a"] (by decide) (by decide)

end Bindery
