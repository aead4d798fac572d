import Mathlib.Data.List.Induction
import Bindery.Assembly.Assemble

/-! What names mean in the text of a unit.

A unit begins with its imports, statement by statement, and its classes follow, one below the
other. Each of them binds a name, and of two that bind one name the later one counts
(`Bindings.meaning?`). So a class hides the imports of its name from the classes below it, and of
the imports that bind one name only those that are listed last matter: what is below an import in
the order of the set may come and go (`meaning?_emitted_congr`). -/
namespace Bindery

/-- What the text of a unit can mean by a name. -/
inductive Meaning where
  /-- A class of the unit. -/
  | written
  /-- What the module `source` has under `name`, or the module `name`. -/
  | imported (source : Option String) (name : String)
deriving DecidableEq, Repr

/-- Names with what they are bound to, one after the other. -/
abbrev Bindings : Type := List (String × Meaning)

/-- What an import binds. A plain import without a name of its own binds the topmost package. -/
def Import.binding (i : Import) : String × Meaning :=
  match i.source, i.asName with
  | some source, given => (given.getD i.name, .imported (some source) i.name)
  | none, some given => (given, .imported none i.name)
  | none, none => (Text.before "." i.name, .imported none (Text.before "." i.name))

/-- The imports of a unit and the global ones in the order of their statements, as
`importSections` writes them. -/
def Imports.emitted (own global : Imports) : List Import :=
  let (future, own) := own.takeModule futureModule
  let (globalFuture, global) := global.takeModule futureModule
  (future.insertAll globalFuture.toList).toList ++ own.toList ++ global.toList

def Bindings.below (imports : List Import) (classes : List String) : Bindings :=
  imports.map Import.binding ++ classes.map fun name => (name, .written)

/-- What a name means below its bindings: the last one counts. -/
def Bindings.meaning? (bindings : Bindings) (name : String) : Option Meaning :=
  List.lookup name bindings.reverse

/-! ### The last binding -/

namespace Bindings
variable {bindings : Bindings} {name : String}

theorem meaning?_append (earlier later : Bindings) (name : String) :
    (earlier ++ later).meaning? name = (later.meaning? name).or (earlier.meaning? name) := by
  rw [meaning?, List.reverse_append, List.lookup_append]
  rfl

theorem meaning?_classes (classes : List String) (name : String) :
    meaning? (classes.map fun name => (name, .written)) name =
      if name ∈ classes then some .written else none := by
  induction classes using List.reverseRecOn with
  | nil => rfl
  | append_singleton classes last ih =>
    rw [List.map_append, meaning?_append, ih]
    by_cases hlast : name = last
    · simp [meaning?, hlast]
    · simp [meaning?, List.lookup_cons, beq_false_of_ne hlast, hlast]

/-- A class hides what is imported. -/
theorem meaning?_below (imports : List Import) (classes : List String) (name : String) :
    (below imports classes).meaning? name =
      if name ∈ classes then some .written
      else meaning? (imports.map Import.binding) name := by
  rw [below, meaning?_append, meaning?_classes]
  split <;> simp

theorem exists_meaning {binding : String × Meaning} (h : binding ∈ bindings) :
    ∃ meaning, bindings.meaning? binding.1 = some meaning := by
  refine Option.isSome_iff_exists.1 (List.lookup_isSome_iff.2 ⟨binding, ?_, ?_⟩)
  · exact List.mem_reverse.2 h
  · exact BEq.rfl

/-- What a name means is decided from any of its bindings on. -/
theorem meaning?_append_cons (earlier later : Bindings) (binding : String × Meaning) :
    (earlier ++ binding :: later).meaning? binding.1 =
      meaning? (binding :: later) binding.1 := by
  have hmem : binding ∈ binding :: later := List.mem_cons_self
  obtain ⟨found, hfound⟩ := exists_meaning hmem
  rw [meaning?_append, hfound, Option.some_or]

end Bindings

/-! ### Sets of imports -/

/-- What follows a member of an increasing list is what lies above it. -/
theorem mem_of_increasing_split {α : Type} [Ord α] [Std.TransOrd α] {i j : α}
    {before after : List α} (h : Increasing (before ++ i :: after)) :
    j ∈ after ↔ j ∈ before ++ i :: after ∧ compare i j = .lt := by
  have hsplit := List.pairwise_append.1 h
  have hafter := (List.pairwise_cons.1 hsplit.2.1).1
  constructor
  · exact fun hj => ⟨by simp [hj], hafter j hj⟩
  · rintro ⟨hj, hlt⟩
    rcases List.mem_append.1 hj with hj | hj
    · exact absurd hlt (Std.OrientedCmp.not_lt_of_lt (hsplit.2.2 j hj i List.mem_cons_self))
    · rcases List.mem_cons.1 hj with rfl | hj
      · simp at hlt
      · exact hj

/-- What the name of an import means in a set does not depend on what lies below the import. -/
theorem Imports.meaning?_congr {s t : Imports} {i : Import} (hs : i ∈ s) (ht : i ∈ t)
    (h : ∀ j, compare i j = .lt → (j ∈ s ↔ j ∈ t)) :
    Bindings.meaning? (s.toList.map Import.binding) i.binding.1 =
      Bindings.meaning? (t.toList.map Import.binding) i.binding.1 := by
  obtain ⟨before, after, hsplit⟩ := List.append_of_mem (SortedSet.mem_toList.2 hs)
  obtain ⟨before', after', hsplit'⟩ := List.append_of_mem (SortedSet.mem_toList.2 ht)
  have hinc := hsplit ▸ s.increasing
  have hinc' := hsplit' ▸ t.increasing
  have hsame : after = after' := by
    refine SortedSet.eq_of_increasing (List.pairwise_cons.1 (List.pairwise_append.1 hinc).2.1).2
      (List.pairwise_cons.1 (List.pairwise_append.1 hinc').2.1).2 fun j => ?_
    rw [mem_of_increasing_split hinc, mem_of_increasing_split hinc', ← hsplit, ← hsplit']
    exact and_congr_left (h j)
  rw [hsplit, hsplit', hsame, List.map_append, List.map_append, List.map_cons]
  exact (Bindings.meaning?_append_cons _ _ _).trans (Bindings.meaning?_append_cons _ _ _).symm

/-- **Only what is listed behind an import changes what its name means.** Two sets that have the
import, and the same imports above it, give its name one meaning, whatever the global imports
and the classes are. -/
theorem Imports.meaning?_emitted_congr {own own' : Imports} {i : Import} (hi : i ∈ own)
    (hi' : i ∈ own') (hfuture : i.source ≠ some futureModule)
    (h : ∀ j, compare i j = .lt → (j ∈ own ↔ j ∈ own')) (global : Imports)
    (classes : List String) :
    (Bindings.below (emitted own global) classes).meaning? i.binding.1 =
      (Bindings.below (emitted own' global) classes).meaning? i.binding.1 := by
  have hmem : ∀ {j : Import} {s : Imports},
      j ∈ s.filter (·.source ≠ some futureModule) ↔ j ∈ s ∧ j.source ≠ some futureModule := by
    intro j s
    simp
  have hown := meaning?_congr (hmem.2 ⟨hi, hfuture⟩) (hmem.2 ⟨hi', hfuture⟩) fun j hj => by
    rw [hmem, hmem, h j hj]
  -- The imports of the unit give the name a meaning, so those from the future have no say.
  have hbinding : i.binding ∈ (own'.filter (·.source ≠ some futureModule)).toList.map
      Import.binding := List.mem_map_of_mem (SortedSet.mem_toList.2 (hmem.2 ⟨hi', hfuture⟩))
  obtain ⟨found, hfound⟩ := Bindings.exists_meaning hbinding
  simp only [Bindings.meaning?_below, emitted, takeModule, List.map_append,
    Bindings.meaning?_append, hown, hfound, Option.some_or]

end Bindery
