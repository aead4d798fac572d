import Mathlib.Data.List.Dedup
import Mathlib.Data.List.Induction
import Mathlib.Data.List.Perm.Basic
import Bindery.Proofs.Layout.Partition

/-! Which namespaces have a unit in the end.

Where a namespace is written is decided by the namespaces alone: into the init file of its
own directory if others lie below it, else into a file beside its siblings
(`placeAmong`). Two namespaces have one place only if the one is called `__init__` in the
other and has none below it (`place_eq_iff`). The one above comes later and takes the place,
so the one below is `Overtaken`. Taking places in decreasing order keeps the package `Laid`:
the units in it are those of the namespaces that are not overtaken (`mem_plans`). So
every model is in the unit of its namespace if and only if none is (`models_kept_iff`). -/
namespace Bindery

/-- The unit that stands at a place, if it is more than a placeholder. -/
def Slot.plan? : Slot → Option UnitPlan
  | .placeholder => none
  | .planned plan => some plan

namespace Partition

def plans (slots : Partition) : List UnitPlan := slots.filterMap fun e => e.2.plan?

/-- The key and kind of a namespace among others. -/
def placeAmong (all : List (List String)) (path : List String) : UnitKey × UnitKind :=
  match path.getLast? with
  | none => (UnitKey.root, .rootInit)
  | some last =>
    if ∃ q ∈ all, path ∈ ancestors q then (UnitKey.init path, .packageInit)
    else (UnitKey.leaf path.dropLast last, .leaf)

def unitAmong (models : List Model) (all : List (List String)) (path : List String) : UnitPlan :=
  ⟨(placeAmong all path).1, path, (placeAmong all path).2, modelsAt models path⟩

/-- A namespace is called `__init__` in another one and has none below it, so its file is the
init file of the other. -/
def Overtaken (all : List (List String)) (path : List String) : Prop :=
  (∃ above ∈ all, path = above ++ ["__init__"]) ∧ ∀ q ∈ all, path ∉ ancestors q

instance (all : List (List String)) (path : List String) : Decidable (Overtaken all path) :=
  inferInstanceAs (Decidable (_ ∧ _))

/-! ### Namespaces above others -/

theorem mem_ancestors {p q : List String} : p ∈ ancestors q ↔ ∃ s below, q = p ++ s :: below := by
  simp only [ancestors, List.mem_map, List.mem_range]
  constructor
  · rintro ⟨depth, hdepth, rfl⟩
    refine ⟨q[depth], q.drop (depth + 1), ?_⟩
    rw [← List.drop_eq_getElem_cons hdepth, List.take_append_drop]
  · rintro ⟨s, below, rfl⟩
    exact ⟨p.length, by simp, by simp⟩

theorem not_mem_ancestors_self (p : List String) : p ∉ ancestors p := by
  intro h
  obtain ⟨s, below, he⟩ := mem_ancestors.1 h
  have := congrArg List.length he
  simp at this

theorem mem_ancestors_init (p : List String) : p ∈ ancestors (p ++ ["__init__"]) :=
  mem_ancestors.2 ⟨_, [], rfl⟩

/-- What lies below a namespace comes before it in decreasing order. -/
theorem compare_of_mem_ancestors {p q : List String} (h : p ∈ ancestors q) :
    compare p q = .lt := by
  obtain ⟨s, below, rfl⟩ := mem_ancestors.1 h
  rw [List.compare_eq_compareLex]
  induction p with
  | nil => rfl
  | cons a p ih =>
    have hself : compare a a = .eq := Std.ReflCmp.compare_self
    rw [List.cons_append, List.compareLex_cons_cons, hself]
    exact ih (mem_ancestors.2 ⟨s, below, rfl⟩)

theorem mem_paths {models : List Model} {path : List String} :
    path ∈ paths models ↔ path ∈ models.map Model.path := by
  rw [paths, List.mem_reverse, SortedSet.mem_toList, SortedSet.mem_ofList]

theorem pairwise_paths (models : List Model) :
    (paths models).Pairwise fun a b => compare b a = .lt :=
  List.pairwise_reverse.2 (SortedSet.ofList (models.map Model.path)).increasing

theorem nodup_paths (models : List Model) : (paths models).Nodup := by
  refine (pairwise_paths models).imp ?_
  rintro path _ hlt rfl
  exact Std.OrientedCmp.not_lt_of_lt hlt hlt

/-! ### Places that two namespaces have -/

theorem init_inj {p q : List String} : UnitKey.init p = UnitKey.init q ↔ p = q := by
  simp [UnitKey.init]

theorem append_py_eq_initFile {s : String} : s ++ ".py" = UnitKey.initFile ↔ s = "__init__" := by
  have h : UnitKey.initFile = "__init__" ++ ".py" := rfl
  rw [h, String.append_left_inj]

section Places
variable {all : List (List String)} {p q : List String}

/-- The root and a namespace with others below it have an init file, any other namespace a
file beside its siblings. -/
theorem place_cases (all : List (List String)) (p : List String) :
    ((p = [] ∨ ∃ q ∈ all, p ∈ ancestors q) ∧ (placeAmong all p).1 = UnitKey.init p) ∨
      ∃ parents last, p = parents ++ [last] ∧ (∀ q ∈ all, p ∉ ancestors q) ∧
        (placeAmong all p).1 = parents ++ [last ++ ".py"] := by
  rcases List.eq_nil_or_concat' p with rfl | ⟨parents, last, rfl⟩
  · exact .inl ⟨.inl rfl, rfl⟩
  · have hlast : (parents ++ [last]).getLast? = some last := List.getLast?_concat
    by_cases hbelow : ∃ q ∈ all, parents ++ [last] ∈ ancestors q
    · refine .inl ⟨.inr hbelow, ?_⟩
      simp only [placeAmong, hlast, if_pos hbelow]
    · refine .inr ⟨parents, last, rfl, by simpa using hbelow, ?_⟩
      simp only [placeAmong, hlast, if_neg hbelow, UnitKey.leaf, List.dropLast_concat]

/-- A namespace has the place of one that does not lie below it only if it is the same, or is
called `__init__` in the other and has none below it. -/
theorem place_eq_iff (hp : p ∈ all) (hpq : p ∉ ancestors q) :
    (placeAmong all p).1 = (placeAmong all q).1 ↔
      p = q ∨ (p = q ++ ["__init__"] ∧ ∀ r ∈ all, p ∉ ancestors r) := by
  constructor
  · intro he
    rcases place_cases all p with ⟨_, hplace⟩ | ⟨parents, last, rfl, hnone, hplace⟩ <;>
      rcases place_cases all q with ⟨_, hplace'⟩ | ⟨parents', last', rfl, _, hplace'⟩ <;>
      rw [hplace, hplace'] at he
    · exact .inl (init_inj.1 he)
    · obtain ⟨rfl, _⟩ := List.append_inj' he rfl
      exact absurd (mem_ancestors.2 ⟨last', [], rfl⟩) hpq
    · obtain ⟨rfl, hfile⟩ := List.append_inj' he rfl
      rw [append_py_eq_initFile.1 (List.cons.inj hfile).1] at hnone ⊢
      exact .inr ⟨rfl, hnone⟩
    · obtain ⟨rfl, hfile⟩ := List.append_inj' he rfl
      exact .inl (by rw [(String.append_left_inj _).1 (List.cons.inj hfile).1])
  · rintro (rfl | ⟨rfl, hnone⟩)
    · rfl
    · rcases place_cases all q with ⟨_, hplace⟩ | ⟨_, _, _, hnone', _⟩
      · rcases place_cases all (q ++ ["__init__"]) with ⟨h, _⟩ | ⟨parents, last, he, _, hplace'⟩
        · exact absurd h (by simpa using hnone)
        · obtain ⟨rfl, hlast⟩ := List.append_inj' he rfl
          rw [hplace, hplace', ← (List.cons.inj hlast).1]
          rfl
      · exact absurd (mem_ancestors_init q) (hnone' _ hp)

end Places

/-! ### Keys of a package -/

section Keys
variable {slots : Partition}

theorem mem_keys_addAncestors {path : List String} {key : UnitKey} :
    key ∈ Entries.keys (slots.addAncestors path) ↔
      key ∈ Entries.keys slots ∨ ∃ p ∈ ancestors path, UnitKey.init p = key := by
  rw [addAncestors]
  induction ancestors path generalizing slots with
  | nil => simp
  | cons p rest ih =>
    rw [List.foldl_cons, ih, Entries.mem_keys_putNew]
    simp only [List.mem_cons, exists_eq_or_imp]
    grind

theorem nodup_keys_addAncestors (h : (Entries.keys slots).Nodup) (path : List String) :
    (Entries.keys (slots.addAncestors path)).Nodup := by
  rw [addAncestors]
  induction ancestors path generalizing slots with
  | nil => exact h
  | cons p rest ih => exact ih (Entries.nodup_keys_putNew h)

/-- A placeholder is put where nothing stands, so no unit comes or goes. -/
theorem find?_addAncestors {path : List String} {key : UnitKey} {plan : UnitPlan} :
    (slots.addAncestors path).find? key = some (.planned plan) ↔
      slots.find? key = some (.planned plan) := by
  rw [addAncestors]
  induction ancestors path generalizing slots with
  | nil => rfl
  | cons p rest ih =>
    rw [List.foldl_cons, ih, Entries.putNew]
    split
    · rfl
    · next hfree =>
      rw [find?, find?, Entries.lookup_put]
      split
      · next he =>
        subst he
        rw [Entries.lookup_eq_none (by simpa using hfree)]
        simp
      · rfl

end Keys

/-! ### Taking places one after the other -/

/-- The places of some namespaces are taken: those above them have an init file, and the units
are those of the namespaces that are not overtaken. -/
structure Laid (models : List Model) (all done : List (List String)) (slots : Partition) :
    Prop where
  nodup_keys : (Entries.keys slots).Nodup
  mem_keys_init : ∀ p, UnitKey.init p ∈ Entries.keys slots ↔
    (∃ q ∈ done, p ∈ ancestors q) ∨ (p = [] ∧ [] ∈ done)
  find?_eq_planned : ∀ key plan, slots.find? key = some (.planned plan) ↔
    ∃ p ∈ done, ¬ Overtaken done p ∧ unitAmong models all p = plan ∧ plan.key = key

section Adding
variable {models : List Model} {all done rest : List (List String)} {path : List String}
  {slots : Partition}

theorem laid_nil : Laid models all [] [] where
  nodup_keys := .nil
  mem_keys_init := fun p => by simp [Entries.keys]
  find?_eq_planned := fun key plan => by simp [find?]

/-- What comes before a namespace in decreasing order is another one and does not lie above it. -/
theorem not_mem_ancestors_of_pairwise
    (h : (done ++ rest).Pairwise fun a b => compare b a = .lt) {p q : List String}
    (hp : p ∈ done) (hq : q ∈ rest) : p ≠ q ∧ p ∉ ancestors q := by
  have hlt : compare q p = .lt := (List.pairwise_append.1 h).2.2 p hp q hq
  constructor
  · rintro rfl
    exact Std.OrientedCmp.not_lt_of_lt hlt hlt
  · exact fun habove => Std.OrientedCmp.not_lt_of_lt hlt (compare_of_mem_ancestors habove)

/-- What lies below a namespace comes before it in decreasing order. -/
theorem mem_of_mem_ancestors_of_pairwise
    (h : (done ++ path :: rest).Pairwise fun a b => compare b a = .lt) {q : List String}
    (hq : q ∈ done ++ path :: rest) (hbelow : path ∈ ancestors q) : q ∈ done := by
  rcases List.mem_append.1 hq with hq | hq
  · exact hq
  · rcases List.mem_cons.1 hq with rfl | hq
    · exact absurd hbelow (not_mem_ancestors_self q)
    · have hlater : ([path] ++ rest).Pairwise fun a b => compare b a = .lt :=
        (List.pairwise_append.1 h).2.1
      exact absurd hbelow (not_mem_ancestors_of_pairwise hlater (List.mem_singleton_self _) hq).2

/-- Once the places above a namespace are taken, it has an init file if and only if it is the
root, or others lie below it. -/
theorem Laid.placeOf_eq (h : Laid models all done slots)
    (hbelow : ∀ q, (q ∈ done ∧ path ∈ ancestors q) ↔ (q ∈ all ∧ path ∈ ancestors q)) :
    (slots.addAncestors path).placeOf path = placeAmong all path := by
  rw [placeOf, placeAmong]
  rcases List.eq_nil_or_concat' path with rfl | ⟨parents, last, rfl⟩
  · rfl
  · have hlast : (parents ++ [last]).getLast? = some last := List.getLast?_concat
    have hhas : Entries.has (UnitKey.init (parents ++ [last]))
        (slots.addAncestors (parents ++ [last])) = true ↔
        ∃ q ∈ all, parents ++ [last] ∈ ancestors q := by
      rw [Entries.has_eq_true, mem_keys_addAncestors, h.mem_keys_init]
      simp only [init_inj, hbelow, exists_eq_right, not_mem_ancestors_self, or_false]
      simp
    simp only [hlast, hhas]

/-- Of the namespaces that are done, a new one overtakes the one that has its place. -/
theorem overtaken_concat (hpaths : (done ++ path :: rest).Pairwise fun a b => compare b a = .lt)
    {p : List String} (hp : p ∈ done) :
    Overtaken (done ++ [path]) p ↔ Overtaken done p ∨
      (placeAmong (done ++ path :: rest) p).1 = (placeAmong (done ++ path :: rest) path).1 := by
  have hlater : ∀ q ∈ path :: rest, p ≠ q ∧ p ∉ ancestors q := fun q hq =>
    not_mem_ancestors_of_pairwise hpaths hp hq
  have hhead := hlater path List.mem_cons_self
  -- Whether something lies below it was settled before.
  have hnone : ∀ later, later ⊆ path :: rest →
      ((∀ q ∈ done ++ later, p ∉ ancestors q) ↔ ∀ q ∈ done, p ∉ ancestors q) := by
    intro later hsub
    refine ⟨fun h q hq => h q (List.mem_append_left _ hq), fun h q hq => ?_⟩
    exact (List.mem_append.1 hq).elim (h q) fun hq => (hlater q (hsub hq)).2
  rw [place_eq_iff (List.mem_append_left _ hp) hhead.2, or_iff_right hhead.1, Overtaken, Overtaken,
    hnone [path] (by simp), hnone (path :: rest) (List.Subset.refl _)]
  simp only [List.mem_append, List.mem_singleton, or_and_right, exists_or, exists_eq_left]

/-- An init file has the place of a namespace that is one itself or lies below it. -/
theorem init_eq_place {p : List String} (h : UnitKey.init p = (placeAmong all path).1) :
    (p = path ∧ (path = [] ∨ ∃ q ∈ all, path ∈ ancestors q)) ∨ p ∈ ancestors path := by
  rcases place_cases all path with ⟨hpackage, hplace⟩ | ⟨parents, last, rfl, _, hplace⟩
  · exact .inl ⟨init_inj.1 (h.trans hplace), hpackage⟩
  · obtain ⟨rfl, _⟩ := List.append_inj' (h.trans hplace) rfl
    exact .inr (mem_ancestors.2 ⟨last, [], rfl⟩)

/-- **One more namespace.** With those below it done and none above it, a namespace takes its
place, and with it that of a namespace called `__init__` in it. -/
theorem Laid.add (h : Laid models (done ++ path :: rest) done slots)
    (hpaths : (done ++ path :: rest).Pairwise fun a b => compare b a = .lt) :
    Laid models (done ++ path :: rest) (done ++ [path]) (add models slots path) := by
  have habove : ∀ p ∈ done, p ≠ path ∧ p ∉ ancestors path := fun p hp =>
    not_mem_ancestors_of_pairwise hpaths hp List.mem_cons_self
  have hbelow : ∀ q, (q ∈ done ∧ path ∈ ancestors q) ↔
      (q ∈ done ++ path :: rest ∧ path ∈ ancestors q) := fun q =>
    ⟨fun hq => ⟨List.mem_append_left _ hq.1, hq.2⟩,
      fun hq => ⟨mem_of_mem_ancestors_of_pairwise hpaths hq.1 hq.2, hq.2⟩⟩
  have hadd : Partition.add models slots path =
      Entries.put (placeAmong (done ++ path :: rest) path).1
        (.planned (unitAmong models (done ++ path :: rest) path)) (slots.addAncestors path) := by
    rw [Partition.add, h.placeOf_eq hbelow]
    rfl
  -- No namespace that is done lies above the new one.
  have hfree : ¬ Overtaken (done ++ [path]) path := by
    rintro ⟨⟨above, hmem, he⟩, _⟩
    have hanc : above ∈ ancestors path := he ▸ mem_ancestors_init above
    rcases List.mem_append.1 hmem with hmem | hmem
    · exact (habove above hmem).2 hanc
    · exact not_mem_ancestors_self path (List.mem_singleton.1 hmem ▸ hanc)
  rw [hadd]
  refine ⟨Entries.nodup_keys_put (nodup_keys_addAncestors h.nodup_keys path), fun p => ?_,
    fun key plan => ?_⟩
  · rw [Entries.mem_keys_put, mem_keys_addAncestors, h.mem_keys_init]
    simp only [init_inj, exists_eq_right, List.mem_append, List.mem_singleton, or_and_right,
      exists_or, exists_eq_left]
    constructor
    · rintro (hplace | (hold | hroot) | hanc)
      · rcases init_eq_place hplace with ⟨rfl, rfl | ⟨q, hq⟩⟩ | hanc
        · exact .inr ⟨rfl, .inr rfl⟩
        · exact .inl (.inl ⟨q, (hbelow q).2 hq⟩)
        · exact .inl (.inr hanc)
      · exact .inl (.inl hold)
      · exact .inr ⟨hroot.1, .inl hroot.2⟩
      · exact .inl (.inr hanc)
    · rintro ((hold | hanc) | ⟨rfl, hroot | rfl⟩)
      · exact .inr (.inl (.inl hold))
      · exact .inr (.inr hanc)
      · exact .inr (.inl (.inr ⟨rfl, hroot⟩))
      · exact .inl rfl
  · rw [find?, Entries.lookup_put]
    split
    · next hkey =>
      subst hkey
      constructor
      · intro he
        cases he
        exact ⟨path, by simp, hfree, rfl, rfl⟩
      · rintro ⟨p, hp, hnot, rfl, hplace⟩
        rcases List.mem_append.1 hp with hp | hp
        · exact absurd ((overtaken_concat hpaths hp).2 (.inr hplace)) hnot
        · rw [List.mem_singleton.1 hp]
    · next hkey =>
      refine (find?_addAncestors.trans (h.find?_eq_planned key plan)).trans ?_
      constructor
      · rintro ⟨p, hp, hnot, rfl, rfl⟩
        refine ⟨p, List.mem_append_left _ hp, ?_, rfl, rfl⟩
        rw [overtaken_concat hpaths hp]
        exact not_or.2 ⟨hnot, hkey⟩
      · rintro ⟨p, hp, hnot, rfl, rfl⟩
        rcases List.mem_append.1 hp with hp | hp
        · rw [overtaken_concat hpaths hp, not_or] at hnot
          exact ⟨p, hp, hnot.1, rfl, rfl⟩
        · exact absurd (by rw [List.mem_singleton.1 hp]; rfl) hkey

/-- **All places are taken.** -/
theorem laid_ofModels (models : List Model) :
    Laid models (paths models) (paths models) (ofModels models) := by
  have hrun : ∀ (rest done : List (List String)) (slots : Partition), done ++ rest = paths models →
      Laid models (paths models) done slots →
      Laid models (paths models) (paths models) (rest.foldl (Partition.add models) slots) := by
    intro rest
    induction rest with
    | nil => exact fun done slots he h => by simpa [← he] using h
    | cons path rest ih =>
      intro done slots he h
      rw [← he] at h
      have hnext := h.add (he ▸ pairwise_paths models)
      rw [he] at hnext
      exact ih (done ++ [path]) _ (by simpa using he) hnext
  exact hrun (paths models) [] [] rfl laid_nil

end Adding

/-! ### Planned units -/

section Plans
variable {models : List Model} {slots : Partition}

/-- The units of a package stand at different keys. -/
theorem nodup_plans (hkeys : (Entries.keys slots).Nodup)
    (hkeyed : ∀ e ∈ slots, ∀ plan, e.2.plan? = some plan → plan.key = e.1) :
    slots.plans.Nodup := by
  have hsub : (slots.plans.map UnitPlan.key).Sublist (Entries.keys slots) := by
    clear hkeys
    induction slots with
    | nil => exact .slnil
    | cons e rest ih =>
      obtain ⟨he, hrest⟩ := List.forall_mem_cons.1 hkeyed
      rw [plans, List.filterMap_cons]
      cases hplan : e.2.plan? with
      | none => exact (ih hrest).cons _
      | some plan =>
        have hhead : plan.key = e.1 := he plan hplan
        simp only [List.map_cons, Entries.keys, hhead]
        exact (ih hrest).cons_cons e.1
  exact (hsub.nodup hkeys).of_map _

theorem mem_plans {plan : UnitPlan} :
    plan ∈ slots.plans ↔ ∃ key, (key, Slot.planned plan) ∈ slots := by
  rw [plans, List.mem_filterMap]
  constructor
  · rintro ⟨⟨key, _ | plan'⟩, he, hplan⟩
    · cases hplan
    · cases hplan
      exact ⟨key, he⟩
  · rintro ⟨key, he⟩
    exact ⟨_, he, rfl⟩

/-- **The units of a package** are those of the namespaces that are not overtaken. -/
theorem perm_plans (models : List Model) :
    (ofModels models).plans.Perm (((paths models).filter fun p => ¬ Overtaken (paths models) p).map
      (unitAmong models (paths models))) := by
  have hlaid := laid_ofModels models
  have hfind : ∀ key plan, (key, Slot.planned plan) ∈ ofModels models ↔
      (ofModels models).find? key = some (.planned plan) := fun key plan =>
    (Entries.lookup_eq_some hlaid.nodup_keys).symm
  refine (List.perm_ext_iff_of_nodup (nodup_plans hlaid.nodup_keys ?_) ?_).2 fun plan => ?_
  · rintro ⟨key, _ | plan'⟩ he plan hplan
    · cases hplan
    · cases hplan
      obtain ⟨_, _, _, _, hkey⟩ := (hlaid.find?_eq_planned key _).1 ((hfind key _).1 he)
      exact hkey
  · exact ((nodup_paths models).filter _).map fun p q he => congrArg UnitPlan.path he
  · simp only [mem_plans, hfind, hlaid.find?_eq_planned, List.mem_map, List.mem_filter,
      decide_eq_true_eq]
    constructor
    · rintro ⟨_, p, hp, hnot, he, _⟩
      exact ⟨p, ⟨hp, hnot⟩, he⟩
    · rintro ⟨p, ⟨hp, hnot⟩, he⟩
      exact ⟨_, p, hp, hnot, he, rfl⟩

/-- What is sorted into groups by different keys is all there. -/
theorem perm_flatMap_filter {α β : Type} [DecidableEq β] (f : α → β) {xs : List α} {keys : List β}
    (hkeys : keys.Nodup) (hcovered : ∀ x ∈ xs, f x ∈ keys) :
    (keys.flatMap fun k => xs.filter fun x => f x = k).Perm xs := by
  induction keys generalizing xs with
  | nil =>
    have hnone : xs = [] := List.eq_nil_iff_forall_not_mem.2 fun x hx => by
      simpa using hcovered x hx
    rw [hnone]
    exact .refl _
  | cons k keys ih =>
    obtain ⟨hk, hkeys⟩ := List.nodup_cons.1 hkeys
    have hothers : ∀ x ∈ xs.filter fun x => !decide (f x = k), f x ∈ keys := by
      intro x hx
      obtain ⟨hx, hne⟩ := List.mem_filter.1 hx
      exact (List.mem_cons.1 (hcovered x hx)).resolve_left (by simpa using hne)
    -- The groups of the other keys are groups of what does not have this one.
    have hrest : (keys.flatMap fun k' => xs.filter fun x => f x = k').Perm
        (xs.filter fun x => !decide (f x = k)) := by
      refine .trans (.of_eq ?_) (ih hkeys hothers)
      refine List.flatMap_congr fun k' hk' => ?_
      rw [List.filter_filter]
      refine List.filter_congr fun x _ => ?_
      have hne : k' ≠ k := fun e => hk (e ▸ hk')
      by_cases he : f x = k' <;> simp [he, hne]
    rw [List.flatMap_cons]
    exact (hrest.append_left _).trans (List.filter_append_perm _ xs)

end Plans

end Partition

open Partition

/-- **A package keeps every model unless a namespace is overtaken.** The planned units
together hold every model once, and each namespace has one unit, with exactly its models in
their order, if and only if no namespace that is called `__init__` in another one with models
of its own is without namespaces below it. -/
theorem models_kept_iff (models : List Model) :
    ((((ofModels models).plans.flatMap UnitPlan.models).Perm models ∧
      (∀ plan ∈ (ofModels models).plans, plan.path ∈ models.map Model.path) ∧
      ∀ path ∈ models.map Model.path, ∃ plan,
        (ofModels models).plans.filter (·.path = path) = [plan] ∧
          plan.models = models.filter (·.path = path)) ↔
      ∀ path ∈ models.map Model.path, path ++ ["__init__"] ∈ models.map Model.path →
        ∃ below ∈ models.map Model.path, path ++ ["__init__"] ∈ ancestors below) := by
  have hplans := perm_plans models
  simp only [← mem_paths]
  constructor
  · rintro ⟨_, _, hunits⟩ path hpath hinit
    obtain ⟨plan, hplan, _⟩ := hunits _ hinit
    obtain ⟨hmem, hname⟩ := List.mem_filter.1 (hplan ▸ List.mem_singleton_self plan)
    obtain ⟨p, hp, rfl⟩ := List.mem_map.1 (hplans.mem_iff.1 hmem)
    obtain rfl : p = path ++ ["__init__"] := of_decide_eq_true hname
    by_contra hnone
    refine of_decide_eq_true (List.mem_filter.1 hp).2 ⟨⟨path, hpath, rfl⟩, fun q hq hbelow => ?_⟩
    exact hnone ⟨q, hq, hbelow⟩
  · intro hbelow
    have hall : (paths models).filter (fun p => ¬ Overtaken (paths models) p) = paths models := by
      refine List.filter_eq_self.2 fun p hp => decide_eq_true ?_
      rintro ⟨⟨path, hpath, rfl⟩, hnone⟩
      obtain ⟨q, hq, hanc⟩ := hbelow path hpath hp
      exact hnone q hq hanc
    rw [hall] at hplans
    refine ⟨?_, fun plan hplan => ?_, fun path hpath => ?_⟩
    · refine (hplans.flatMap_right _).trans ?_
      rw [List.flatMap_map]
      exact perm_flatMap_filter Model.path (nodup_paths models) fun m hm =>
        mem_paths.2 (List.mem_map_of_mem hm)
    · obtain ⟨p, hp, rfl⟩ := List.mem_map.1 (hplans.mem_iff.1 hplan)
      exact hp
    · have hone : ((paths models).filter fun p => p = path).Perm [path] := by
        refine (List.perm_ext_iff_of_nodup ((nodup_paths models).filter _) (by simp)).2 fun p => ?_
        rw [List.mem_filter, decide_eq_true_eq, List.mem_singleton]
        exact ⟨And.right, fun he => ⟨he ▸ hpath, he⟩⟩
      refine ⟨unitAmong models (paths models) path, List.perm_singleton.1 ?_, rfl⟩
      refine (hplans.filter _).trans ?_
      rw [List.filter_map]
      exact hone.map _

/-- The file `a/__init__.py` is that of `a`, which has others below it, and of `a.__init__`, which
has none: what lives in `a.__init__` is lost. -/
theorem models_not_kept_below_init :
    let models : List Model :=
      [{ name := "A", path := ["a"] }, { name := "B", path := ["a", "__init__"] }]
    (ofModels models).plans.map (fun plan => (plan.key, plan.models.map Model.name)) =
        [(["a", "__init__.py"], ["A"])] ∧
      ¬ ((ofModels models).plans.flatMap UnitPlan.models).Perm models := by
  intro models
  have hplans : (ofModels models).plans.map (fun plan => (plan.key, plan.models.map Model.name)) =
      [(["a", "__init__.py"], ["A"])] := by decide
  refine ⟨hplans, fun hperm => ?_⟩
  have hlength : ((ofModels models).plans.flatMap UnitPlan.models).length = 1 := by decide
  rw [hperm.length_eq] at hlength
  exact absurd hlength (by decide)

end Bindery
