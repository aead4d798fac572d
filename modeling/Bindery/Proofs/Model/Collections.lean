import Mathlib.Data.List.Dedup
import Mathlib.Data.Set.Card
import Bindery.Data.Entries
import Bindery.Proofs.Model.Grouping

/-! Collections of imports as sets.

A collection is filled, and the imports of a module are taken out of it again. Whatever was done, it
is the set that the same changes make of the empty set, its groups are those that the changes make of
no groups, and so it is with everything that was taken (`run_represents`). One change is followed on
both sides (`represents_apply`, `inGroups_apply`), and a run of changes keeps what one change keeps
(`Change.agree_run`). That a collection `Represents` a set says all that can be asked of it: what it
lists, what is found in it, how much there is, and its text. -/
namespace Bindery

namespace Imports

/-! ### The groups of a collection -/

section Sets
variable {imports : Imports} {S : Set Import}

/-- The imports of a collection from one source, in their order. -/
def ofSource (imports : Imports) (source : Option String) : List Import :=
  imports.toList.filter (·.source = source)

theorem ofSource_ne_nil {source : Option String} :
    imports.ofSource source ≠ [] ↔ ∃ i ∈ imports, i.source = source := by
  simp [ofSource, List.filter_eq_nil_iff, SortedSet.mem_toList]

/-- A collection in groups: its sources, each once, with all imports from there. -/
theorem exists_groups (imports : Imports) : ∃ sources : List (Option String),
    Increasing sources ∧ (∀ source, source ∈ sources ↔ ∃ i ∈ imports, i.source = source) ∧
      groups imports.toList = sources.map fun source => (source, imports.ofSource source) := by
  have hgrouped := grouped_groups imports.increasing
  refine ⟨_, hgrouped.increasing, fun source => mem_sources_groups, ?_⟩
  rw [List.map_map]
  refine (List.map_id _).symm.trans (List.map_congr_left fun g hg => ?_)
  exact Prod.ext rfl (filter_of_mem_groups imports.increasing hg).symm

/-- No source comes first, then modules in their order. -/
theorem exists_modules {sources : List (Option String)} (h : Increasing sources) :
    ∃ modules : List String, Increasing modules ∧
      (∀ module, module ∈ modules ↔ some module ∈ sources) ∧
      sources = (if none ∈ sources then [none] else []) ++ modules.map some := by
  have hmodules : Increasing (sources.filterMap id) := by
    refine List.Pairwise.filterMap id ?_ h
    rintro _ _ hlt module rfl module' rfl
    exact hlt
  have hmem : ∀ module, module ∈ sources.filterMap id ↔ some module ∈ sources := by simp
  refine ⟨sources.filterMap id, hmodules, hmem, SortedSet.eq_of_increasing h ?_ fun source => ?_⟩
  · refine List.pairwise_append.2 ⟨?_, List.pairwise_map.2 hmodules, ?_⟩
    · split
      · exact List.pairwise_singleton _ _
      · exact .nil
    · intro first hfirst source hsource
      obtain ⟨module, _, rfl⟩ := List.mem_map.1 hsource
      split at hfirst
      · rw [List.mem_singleton.1 hfirst]
        rfl
      · cases hfirst
  · cases source with
    | none => split <;> simp_all
    | some module => split <;> simp

/-- What is done for every source is done for plain imports and for every module. -/
theorem flatMap_sources {β : Type} {sources : List (Option String)} {modules : List String}
    (hsources : sources = (if none ∈ sources then [none] else []) ++ modules.map some)
    (f : Option String → List β) (hnone : none ∉ sources → f none = []) :
    sources.flatMap f = f none ++ modules.flatMap fun module => f (some module) := by
  rw [hsources, List.flatMap_append, List.flatMap_map]
  split
  · rw [List.flatMap_singleton]
  · next hno => rw [hnone hno, List.flatMap_nil]

/-- Whether an import is in the group of its source. -/
def contains (imports : Imports) (i : Import) : Bool :=
  ((groups imports.toList).lookup i.source).any fun members => members.contains i

/-- What is in a collection is in the one group in which it is looked for. -/
theorem contains_eq_true {i : Import} : imports.contains i = true ↔ i ∈ imports := by
  have hgrouped := grouped_groups imports.increasing
  have hkeys : (Entries.keys (groups imports.toList)).Nodup := hgrouped.nodup_sources
  rw [contains, Option.any_eq_true, ← SortedSet.mem_toList, mem_iff_mem_groups]
  constructor
  · rintro ⟨members, hlookup, hi⟩
    exact ⟨(i.source, members), (Entries.lookup_eq_some hkeys).1 hlookup, by simpa using hi⟩
  · rintro ⟨⟨source, members⟩, hg, hi⟩
    obtain rfl := hgrouped.own _ hg i hi
    exact ⟨members, (Entries.lookup_eq_some hkeys).2 hg, by simpa using hi⟩

/-! ### What a collection says of itself -/

/-- A collection is a set of imports, whatever it is asked: what it lists, in order, what is looked
for in it and how much there is. Its groups are its sources, each with its imports. Its text has a
statement for each plain import and one for each module, and these have every import once. -/
structure Represents (imports : Imports) (S : Set Import) : Prop where
  listed : ∀ i, i ∈ imports.toList ↔ i ∈ S
  increasing : Increasing imports.toList
  contains_iff : ∀ i, imports.contains i = true ↔ i ∈ S
  size_eq : imports.size = S.ncard
  isEmpty_iff : imports.isEmpty = true ↔ S = ∅
  grouped : ∃ sources : List (Option String), Increasing sources ∧
    (∀ source, source ∈ sources ↔ ∃ i ∈ S, i.source = source) ∧
    groups imports.toList = sources.map fun source => (source, imports.ofSource source)
  size_groups : imports.size = ((groups imports.toList).map fun g => g.2.length).sum
  isEmpty_groups : imports.isEmpty = true ↔ groups imports.toList = []
  written : ∃ modules : List String, Increasing modules ∧
    (∀ module, module ∈ modules ↔ ∃ i ∈ S, i.source = some module) ∧
    imports.ofSource none ++ modules.flatMap (fun module => imports.ofSource (some module)) =
      imports.toList ∧
    imports.text = Text.join "\n" ((imports.ofSource none).map Import.text ++
      modules.map fun module => "from " ++ module ++ " import " ++
        Text.join ", " ((imports.ofSource (some module)).map Import.nameText))

theorem size_eq_ncard (imports : Imports) : imports.size = {i | i ∈ imports}.ncard := by
  have hset : {i | i ∈ imports} = (imports.toList.toFinset : Set Import) := by
    ext i
    simp [SortedSet.mem_toList]
  rw [hset, Set.ncard_coe_finset, List.toFinset_card_of_nodup imports.nodup]
  rfl

theorem isEmpty_eq_true : imports.isEmpty = true ↔ imports.toList = [] :=
  List.isEmpty_iff

/-- The text of a collection, statement by statement. -/
theorem exists_text (imports : Imports) : ∃ modules : List String, Increasing modules ∧
    (∀ module, module ∈ modules ↔ ∃ i ∈ imports, i.source = some module) ∧
    imports.ofSource none ++ modules.flatMap (fun module => imports.ofSource (some module)) =
      imports.toList ∧
    imports.text = Text.join "\n" ((imports.ofSource none).map Import.text ++
      modules.map fun module => "from " ++ module ++ " import " ++
        Text.join ", " ((imports.ofSource (some module)).map Import.nameText)) := by
  obtain ⟨sources, hincreasing, hmem, hgroups⟩ := imports.exists_groups
  obtain ⟨modules, hmodules, hmodule, hsources⟩ := exists_modules hincreasing
  have hnone : none ∉ sources → imports.ofSource none = [] := fun hno =>
    not_not.1 (mt (fun hne => (hmem none).2 (ofSource_ne_nil.1 hne)) hno)
  have hplain : statements none (imports.ofSource none) =
      (imports.ofSource none).map Import.text := by
    refine List.map_congr_left fun i hi => ?_
    have hsource : i.source = none := of_decide_eq_true (List.mem_filter.1 hi).2
    rw [Import.text, hsource]
  refine ⟨modules, hmodules, fun module => (hmodule module).trans (hmem _), ?_, ?_⟩
  · rw [← flatMap_sources hsources imports.ofSource hnone]
    have hall := flatMap_groups imports.toList
    rwa [hgroups, List.flatMap_map] at hall
  · have hnoplain : none ∉ sources → statements none (imports.ofSource none) = [] := by
      intro hno
      rw [hnone hno]
      rfl
    have hall := flatMap_sources hsources
      (fun source => statements source (imports.ofSource source)) hnoplain
    rw [hplain] at hall
    rw [text, hgroups, List.flatMap_map, hall, List.map_eq_flatMap (l := modules)]
    rfl

/-- **A collection represents the set of what is in it.** -/
theorem represents (h : ∀ i, i ∈ imports ↔ i ∈ S) : Represents imports S := by
  have hset : {i | i ∈ imports} = S := Set.ext h
  have hgroups := flatMap_groups imports.toList
  subst hset
  refine ⟨h, imports.increasing, fun i => contains_eq_true, imports.size_eq_ncard, ?_,
    imports.exists_groups, ?_, ?_, imports.exists_text⟩
  · rw [isEmpty_eq_true, Set.eq_empty_iff_forall_notMem]
    exact List.eq_nil_iff_forall_not_mem
  · rw [← List.length_flatMap, hgroups]
    rfl
  · rw [isEmpty_eq_true]
    constructor
    · intro hnone
      rw [hnone]
      rfl
    · intro hnone
      rw [← hgroups, hnone]
      rfl

theorem Represents.mem_iff (h : Represents imports S) (i : Import) : i ∈ imports ↔ i ∈ S :=
  h.listed i

end Sets

/-! ### Changes -/

/-- What can be done to a collection. -/
inductive Change where
  | append (i : Import)
  | extend (is : List Import)
  | takeModule (module : String)

/-- What changes come to, one after the other, and what they take out on the way, if one of them
comes to `step`. -/
def Change.run {σ : Type} (step : σ → Change → σ × List σ) : σ → List Change → σ × List σ
  | s, [] => (s, [])
  | s, change :: rest =>
    let (s, taken) := step s change
    let (s, later) := run step s rest
    (s, taken ++ later)

/-- What two sides have come to, and what they have taken out, is related. -/
structure Change.Agree {σ τ : Type} (R : σ → τ → Prop) (done : σ × List σ) (done' : τ × List τ) :
    Prop where
  last : R done.1 done'.1
  taken : List.Forall₂ R done.2 done'.2

section Runs
variable {σ τ : Type} {step : σ → Change → σ × List σ} {step' : τ → Change → τ × List τ}
  {R : σ → τ → Prop} {s : σ} {t : τ}

/-- If one change keeps two sides related, a run of changes does. -/
theorem Change.agree_run
    (hstep : ∀ {s t}, R s t → ∀ change, Agree R (step s change) (step' t change)) (h : R s t)
    (changes : List Change) : Agree R (run step s changes) (run step' t changes) := by
  induction changes generalizing s t with
  | nil => exact ⟨h, .nil⟩
  | cons change rest ih =>
    have hnow := hstep h change
    have hlater := ih hnow.last
    exact ⟨hlater.last, List.rel_append hnow.taken hlater.taken⟩

theorem Change.run_concat (s : σ) (changes more : List Change) :
    run step s (changes ++ more) =
      ((run step (run step s changes).1 more).1,
        (run step s changes).2 ++ (run step (run step s changes).1 more).2) := by
  induction changes generalizing s with
  | nil => rfl
  | cons change rest ih => simp only [List.cons_append, run, ih, List.append_assoc]

end Runs

/-- A collection after a change, and what was taken out of it. -/
def apply (imports : Imports) : Change → Imports × List Imports
  | .append i => (imports.insert i, [])
  | .extend is => (imports.insertAll is, [])
  | .takeModule module => ((imports.takeModule module).2, [(imports.takeModule module).1])

def applySet (S : Set Import) : Change → Set Import × List (Set Import)
  | .append i => (insert i S, [])
  | .extend is => (S ∪ {i | i ∈ is}, [])
  | .takeModule module =>
    ({i ∈ S | i.source ≠ some module}, [{i ∈ S | i.source = some module}])

/-- The same change of groups: an import is put to the group of its source, and a module is taken out
as the group that it has. -/
def applyGroups (gs : List (Option String × List Import)) :
    Change → List (Option String × List Import) × List (List (Option String × List Import))
  | .append i => (putInGroup i gs, [])
  | .extend is => (is.foldl (fun gs i => putInGroup i gs) gs, [])
  | .takeModule module =>
    (gs.filter fun g => g.1 ≠ some module, [gs.filter fun g => g.1 = some module])

/-- Groups in order, none of them empty, and a collection that has them. -/
def InGroups (imports : Imports) (gs : List (Option String × List Import)) : Prop :=
  groups imports.toList = gs ∧ Grouped gs

section Changes
variable {imports : Imports} {S : Set Import} {gs : List (Option String × List Import)}

theorem represents_apply (h : Represents imports S) (change : Change) :
    Change.Agree Represents (imports.apply change) (applySet S change) := by
  cases change with
  | append i => exact ⟨represents fun j => by simp [apply, applySet, h.mem_iff], .nil⟩
  | extend is =>
    exact ⟨represents fun j => by simp [apply, applySet, h.mem_iff, or_comm], .nil⟩
  | takeModule module =>
    refine ⟨represents fun j => ?_, .cons (represents fun j => ?_) .nil⟩
    · simp [apply, applySet, h.mem_iff]
    · simp [h.mem_iff]

theorem inGroups_groups (imports : Imports) : InGroups imports (groups imports.toList) :=
  ⟨rfl, grouped_groups imports.increasing⟩

theorem InGroups.insert (h : InGroups imports gs) (i : Import) :
    InGroups (imports.insert i) (putInGroup i gs) := by
  obtain ⟨rfl, hgrouped⟩ := h
  exact ⟨groups_insertIncreasing imports.increasing i, hgrouped.put i⟩

theorem InGroups.insertAll (h : InGroups imports gs) (is : List Import) :
    InGroups (imports.insertAll is) (is.foldl (fun gs i => putInGroup i gs) gs) := by
  induction is generalizing imports gs with
  | nil => exact h
  | cons i rest ih => exact ih (h.insert i)

theorem InGroups.filter (h : InGroups imports gs) (p : Option String → Bool) :
    InGroups (SortedSet.filter (fun i => p i.source) imports) (gs.filter fun g => p g.1) := by
  obtain ⟨rfl, hgrouped⟩ := h
  exact ⟨groups_filter imports.increasing p, hgrouped.filter _⟩

theorem inGroups_apply (h : InGroups imports gs) (change : Change) :
    Change.Agree InGroups (imports.apply change) (applyGroups gs change) := by
  cases change with
  | append i => exact ⟨h.insert i, .nil⟩
  | extend is => exact ⟨h.insertAll is, .nil⟩
  | takeModule module =>
    exact ⟨h.filter (· ≠ some module), .cons (h.filter (· = some module)) .nil⟩

theorem run_map_append (imports : Imports) (is : List Import) :
    Change.run apply imports (is.map .append) = (imports.insertAll is, []) := by
  induction is generalizing imports with
  | nil => rfl
  | cons i rest ih =>
    rw [List.map_cons, Change.run]
    simp only [apply, ih]
    rfl

/-- To append the same imports is the same, in whatever order and however often. -/
theorem run_appends_congr {is js : List Import} (h : ∀ i, i ∈ is ↔ i ∈ js)
    (changes later : List Change) :
    Change.run apply imports (changes ++ is.map .append ++ later) =
      Change.run apply imports (changes ++ js.map .append ++ later) := by
  have hsame : ∀ imports : Imports, imports.insertAll is = imports.insertAll js :=
    fun imports => SortedSet.ext_mem fun i => by simp [h]
  simp only [Change.run_concat, run_map_append, hsame]

end Changes

/-- **Imports are a set.** Whatever is appended, added and taken out by module: the collection
represents the set that the same changes make of nothing, its groups are those that the same changes
make of none, and so it is with whatever was taken out. Somewhere between other changes it makes no
difference in which order and how often the same imports are appended. -/
theorem run_represents (changes : List Change) :
    Change.Agree Represents (Change.run apply .empty changes) (Change.run applySet ∅ changes) ∧
      Change.Agree InGroups (Change.run apply .empty changes) (Change.run applyGroups [] changes) ∧
      ∀ (is js : List Import) (later : List Change), (∀ i, i ∈ is ↔ i ∈ js) →
        Change.run apply .empty (changes ++ is.map .append ++ later) =
          Change.run apply .empty (changes ++ js.map .append ++ later) := by
  have hempty : Represents .empty ∅ := represents fun i => by simp
  have hnone : InGroups .empty [] := inGroups_groups .empty
  exact ⟨Change.agree_run represents_apply hempty changes,
    Change.agree_run inGroups_apply hnone changes,
    fun is js later h => run_appends_congr h changes later⟩

/-- Two imports in another order and one of them twice, before an import is taken out again. -/
theorem run_represents_around_future :
    let list : Import := { source := some "typing", name := "List" }
    let d : Import := { source := some ".", name := "d", asName := some "d2" }
    let changes : List Change := [.append { source := some "__future__", name := "annotations" }]
    let later : List Change := [.takeModule futureModule]
    (∀ i, i ∈ [list, d, list] ↔ i ∈ [d, list]) ∧
      Change.Agree Represents (Change.run apply .empty changes) (Change.run applySet ∅ changes) ∧
      Change.Agree InGroups (Change.run apply .empty changes) (Change.run applyGroups [] changes) ∧
      Change.run apply .empty (changes ++ [list, d, list].map .append ++ later) =
        Change.run apply .empty (changes ++ [d, list].map .append ++ later) := by
  intro list d changes later
  have hsame : ∀ i, i ∈ [list, d, list] ↔ i ∈ [d, list] := by simp +contextual
  obtain ⟨hset, hgroups, hcongr⟩ := run_represents changes
  exact ⟨hsame, hset, hgroups, hcongr _ _ later hsame⟩

example :
    let (left, taken) := Change.run apply .empty
      [.append { source := some "__future__", name := "annotations" },
        .append { source := some "typing", name := "List" }, .append { name := "enum" },
        .append { source := some ".", name := "d", asName := some "d2" },
        .append { source := some "typing", name := "List" }, .takeModule futureModule]
    left.text = "import enum\nfrom . import d as d2\nfrom typing import List" ∧
      taken.map Imports.text = ["from __future__ import annotations"] := by
  decide

end Imports

end Bindery
