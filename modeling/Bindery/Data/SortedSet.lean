/-! Finite sets as strictly increasing lists.

A set of names is written out in order, so it is kept in order: `SortedSet` is a
list with the proof that it increases. One set then has one list, and two sets
with the same members are equal (`SortedSet.ext_mem`). Every operation is stated
through membership (`mem_insert`, `mem_erase`, `mem_ofList`). -/
namespace Bindery

/-- Each element lies below every later one. -/
abbrev Increasing {α : Type} [Ord α] (elements : List α) : Prop :=
  elements.Pairwise fun a b => compare a b = .lt

section Insertion
variable {α : Type} [Ord α]

/-- Put `a` where it belongs in an increasing list; an element that is already
there stays. -/
def insertIncreasing (a : α) : List α → List α
  | [] => [a]
  | b :: rest =>
    match compare a b with
    | .lt => a :: b :: rest
    | .eq => b :: rest
    | .gt => b :: insertIncreasing a rest

theorem mem_insertIncreasing [Std.LawfulEqOrd α] {a x : α} {elements : List α} :
    x ∈ insertIncreasing a elements ↔ x = a ∨ x ∈ elements := by
  induction elements with
  | nil => simp [insertIncreasing]
  | cons b rest ih =>
    cases h : compare a b with
    | lt => simp [insertIncreasing, h]
    | eq =>
      have hab : a = b := Std.LawfulEqOrd.eq_of_compare h
      subst hab
      simp [insertIncreasing]
    | gt =>
      simp only [insertIncreasing, h, List.mem_cons, ih]
      grind

theorem increasing_insertIncreasing [Std.TransOrd α] [Std.LawfulEqOrd α] (a : α)
    {elements : List α} (h : Increasing elements) : Increasing (insertIncreasing a elements) := by
  induction elements with
  | nil => simp [insertIncreasing, Increasing]
  | cons b rest ih =>
    have hb := List.pairwise_cons.1 h
    cases hab : compare a b with
    | lt =>
      simp only [insertIncreasing, hab]
      refine List.pairwise_cons.2 ⟨fun c hc => ?_, h⟩
      rcases List.mem_cons.1 hc with rfl | hc
      · exact hab
      · exact Std.TransCmp.lt_trans hab (hb.1 c hc)
    | eq => simpa only [insertIncreasing, hab] using h
    | gt =>
      simp only [insertIncreasing, hab]
      refine List.pairwise_cons.2 ⟨fun c hc => ?_, ih hb.2⟩
      rcases mem_insertIncreasing.1 hc with rfl | hc
      · exact Std.OrientedCmp.lt_of_gt hab
      · exact hb.1 c hc

end Insertion

/-- A finite set, listed in increasing order. -/
structure SortedSet (α : Type) [Ord α] where
  toList : List α
  increasing : Increasing toList

namespace SortedSet
variable {α : Type} [Ord α]

def empty : SortedSet α := ⟨[], .nil⟩

instance : Inhabited (SortedSet α) := ⟨empty⟩

instance : Membership α (SortedSet α) := ⟨fun s a => a ∈ s.toList⟩

instance [DecidableEq α] (a : α) (s : SortedSet α) : Decidable (a ∈ s) :=
  inferInstanceAs (Decidable (a ∈ s.toList))

instance (p : α → Prop) [DecidablePred p] (s : SortedSet α) : Decidable (∃ a ∈ s, p a) :=
  inferInstanceAs (Decidable (∃ a ∈ s.toList, p a))

def size (s : SortedSet α) : Nat := s.toList.length

def isEmpty (s : SortedSet α) : Bool := s.toList.isEmpty

def filter (p : α → Bool) (s : SortedSet α) : SortedSet α :=
  ⟨s.toList.filter p, s.increasing.filter p⟩

/-- The set without `a`. -/
def erase [DecidableEq α] (a : α) (s : SortedSet α) : SortedSet α :=
  s.filter (· ≠ a)

section Lawful
variable [Std.TransOrd α] [Std.LawfulEqOrd α]

/-- The set with `a`. -/
def insert (a : α) (s : SortedSet α) : SortedSet α :=
  ⟨insertIncreasing a s.toList, increasing_insertIncreasing a s.increasing⟩

def insertAll (s : SortedSet α) (elements : List α) : SortedSet α :=
  elements.foldl (fun s a => s.insert a) s

def ofList (elements : List α) : SortedSet α := empty.insertAll elements

end Lawful

/-! ### Membership -/

theorem nodup [Std.TransOrd α] (s : SortedSet α) : s.toList.Nodup := by
  refine s.increasing.imp fun {a b} h => ?_
  rintro rfl
  simp at h

theorem mem_toList {a : α} {s : SortedSet α} : a ∈ s.toList ↔ a ∈ s := Iff.rfl

@[simp] theorem not_mem_empty (a : α) : ¬ a ∈ (empty : SortedSet α) := List.not_mem_nil

@[simp] theorem mem_filter {a : α} {p : α → Bool} {s : SortedSet α} :
    a ∈ s.filter p ↔ a ∈ s ∧ p a :=
  List.mem_filter

@[simp] theorem mem_erase [DecidableEq α] {a b : α} {s : SortedSet α} :
    a ∈ s.erase b ↔ a ∈ s ∧ a ≠ b := by
  simp [erase]

@[simp] theorem mem_insert [Std.TransOrd α] [Std.LawfulEqOrd α] {a b : α} {s : SortedSet α} :
    a ∈ s.insert b ↔ a = b ∨ a ∈ s :=
  mem_insertIncreasing

@[simp] theorem mem_insertAll [Std.TransOrd α] [Std.LawfulEqOrd α] {a : α} {elements : List α}
    {s : SortedSet α} : a ∈ s.insertAll elements ↔ a ∈ elements ∨ a ∈ s := by
  induction elements generalizing s with
  | nil => simp [insertAll]
  | cons b rest ih =>
    have h := ih (s := s.insert b)
    simp only [insertAll, List.foldl_cons] at h ⊢
    rw [h, mem_insert]
    simp only [List.mem_cons]
    grind

@[simp] theorem mem_ofList [Std.TransOrd α] [Std.LawfulEqOrd α] {a : α} {elements : List α} :
    a ∈ (ofList elements : SortedSet α) ↔ a ∈ elements := by
  simp [ofList]

/-! ### Equality -/

theorem eq_of_increasing [Std.TransOrd α] [Std.LawfulEqOrd α] {xs ys : List α}
    (hx : Increasing xs) (hy : Increasing ys) (h : ∀ a, a ∈ xs ↔ a ∈ ys) : xs = ys := by
  induction xs generalizing ys with
  | nil =>
    cases ys with
    | nil => rfl
    | cons y ys => exact absurd ((h y).2 List.mem_cons_self) List.not_mem_nil
  | cons x xs ih =>
    cases ys with
    | nil => exact absurd ((h x).1 List.mem_cons_self) List.not_mem_nil
    | cons y ys =>
      have hx' := List.pairwise_cons.1 hx
      have hy' := List.pairwise_cons.1 hy
      have irrefl : ∀ a : α, compare a a ≠ .lt := fun a => by simp
      have below : ∀ {a b : α}, compare a b = .lt → compare b a ≠ .lt := fun h h' =>
        irrefl _ (Std.TransCmp.lt_trans h h')
      have hxy : x = y := by
        rcases List.mem_cons.1 ((h x).1 List.mem_cons_self) with e | hx₁
        · exact e
        · rcases List.mem_cons.1 ((h y).2 List.mem_cons_self) with e | hy₁
          · exact e.symm
          · exact absurd (hy'.1 x hx₁) (below (hx'.1 y hy₁))
      subst hxy
      rw [ih hx'.2 hy'.2 fun a => ?_]
      constructor
      · intro ha
        rcases List.mem_cons.1 ((h a).1 (List.mem_cons_of_mem _ ha)) with rfl | ha'
        · exact absurd (hx'.1 _ ha) (irrefl _)
        · exact ha'
      · intro ha
        rcases List.mem_cons.1 ((h a).2 (List.mem_cons_of_mem _ ha)) with rfl | ha'
        · exact absurd (hy'.1 _ ha) (irrefl _)
        · exact ha'

/-- **A set is its members.** -/
theorem ext_mem [Std.TransOrd α] [Std.LawfulEqOrd α] {s t : SortedSet α}
    (h : ∀ a, a ∈ s ↔ a ∈ t) : s = t := by
  obtain ⟨xs, hx⟩ := s
  obtain ⟨ys, hy⟩ := t
  have e : xs = ys := eq_of_increasing hx hy h
  subst e
  rfl

/-- A set is the set of what it lists. -/
@[simp] theorem ofList_toList [Std.TransOrd α] [Std.LawfulEqOrd α] (s : SortedSet α) :
    ofList s.toList = s :=
  ext_mem fun _ => mem_ofList

end SortedSet

end Bindery
