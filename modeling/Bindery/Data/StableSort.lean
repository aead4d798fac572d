/-! Sorting that keeps the order of equals.

`stableSort before xs` puts `x` in front of `y` wherever `before x y` and not the
other way round, and leaves the rest as they came. The result has the same elements
(`perm_stableSort`) in order (`pairwise_stableSort`), what is in order already stays
(`stableSort_append`), and neighbours that are not equals may come either way round
(`stableSort_swap`). Equals keep their order, and with this the order determines the result
(`eq_stableSort`). -/
namespace Bindery

variable {α : Type}

/-- Put `a` in front of the first element that it may come before. -/
def insertInOrder (before : α → α → Bool) (a : α) : List α → List α
  | [] => [a]
  | b :: rest => if before a b then a :: b :: rest else b :: insertInOrder before a rest

/-- Sort by a total preorder; equals keep their order. -/
def stableSort (before : α → α → Bool) : List α → List α
  | [] => []
  | a :: rest => insertInOrder before a (stableSort before rest)

theorem perm_insertInOrder (before : α → α → Bool) (a : α) (elements : List α) :
    (insertInOrder before a elements).Perm (a :: elements) := by
  induction elements with
  | nil => exact .refl _
  | cons b rest ih =>
    simp only [insertInOrder]
    split
    · exact .refl _
    · exact (ih.cons b).trans (.swap a b rest)

theorem perm_stableSort (before : α → α → Bool) (elements : List α) :
    (stableSort before elements).Perm elements := by
  induction elements with
  | nil => exact .refl _
  | cons a rest ih => exact (perm_insertInOrder before a _).trans (ih.cons a)

theorem stableSort_map {β : Type} (f : β → α) (before : α → α → Bool) (elements : List β) :
    stableSort before (elements.map f) =
      (stableSort (fun a b => before (f a) (f b)) elements).map f := by
  have hinsert : ∀ a rest, insertInOrder before (f a) (rest.map f) =
      (insertInOrder (fun a b => before (f a) (f b)) a rest).map f := by
    intro a rest
    induction rest with
    | nil => rfl
    | cons b rest ih =>
      simp only [List.map_cons, insertInOrder, ih]
      split <;> rfl
  induction elements with
  | nil => rfl
  | cons a rest ih => rw [List.map_cons, stableSort, ih, hinsert, stableSort]

section Order
variable {before : α → α → Bool}

/-- Of two elements with an order it does not matter which one is put in place first. -/
theorem insertInOrder_comm {a b : α} (elements : List α)
    (htrans : ∀ a b c, before a b = true → before b c = true → before a c = true)
    (hab : before a b = true) (hba : before b a = false) :
    insertInOrder before a (insertInOrder before b elements) =
      insertInOrder before b (insertInOrder before a elements) := by
  induction elements with
  | nil => simp [insertInOrder, hab, hba]
  | cons c rest ih =>
    by_cases hbc : before b c = true
    · have hac := htrans a b c hab hbc
      simp [insertInOrder, hab, hba, hbc, hac]
    · by_cases hac : before a c = true
      · simp [insertInOrder, hba, hbc, hac]
      · simp [insertInOrder, hbc, hac, ih]

/-- Two neighbours that are not equals may stand the other way round before sorting. -/
theorem stableSort_swap {front back : List α} {a b : α}
    (htotal : ∀ a b, before a b = true ∨ before b a = true)
    (htrans : ∀ a b c, before a b = true → before b c = true → before a c = true)
    (hne : ¬ (before a b = true ∧ before b a = true)) :
    stableSort before (front ++ a :: b :: back) = stableSort before (front ++ b :: a :: back) := by
  induction front with
  | nil =>
    show insertInOrder before a (insertInOrder before b (stableSort before back)) =
      insertInOrder before b (insertInOrder before a (stableSort before back))
    cases htotal a b with
    | inl hab =>
      have hba : before b a = false := Bool.eq_false_iff.2 fun h => hne ⟨hab, h⟩
      exact insertInOrder_comm _ htrans hab hba
    | inr hba =>
      have hab : before a b = false := Bool.eq_false_iff.2 fun h => hne ⟨h, hba⟩
      exact (insertInOrder_comm _ htrans hba hab).symm
  | cons c front ih =>
    rw [List.cons_append, List.cons_append, stableSort, stableSort, ih]

/-- What may come before all others is put in front of them. -/
theorem insertInOrder_of_forall {a : α} {elements : List α}
    (h : ∀ b ∈ elements, before a b = true) : insertInOrder before a elements = a :: elements := by
  cases elements with
  | nil => rfl
  | cons b rest => rw [insertInOrder, if_pos (h b List.mem_cons_self)]

/-- A part in front that is in order, and may come before the rest, stays. -/
theorem stableSort_append {front rest : List α} (hfront : front.Pairwise (before · ·))
    (hrest : ∀ a ∈ front, ∀ b ∈ rest, before a b = true) :
    stableSort before (front ++ rest) = front ++ stableSort before rest := by
  induction front with
  | nil => rfl
  | cons a front ih =>
    obtain ⟨ha, hfront⟩ := List.pairwise_cons.1 hfront
    rw [List.cons_append, stableSort,
      ih hfront fun b hb => hrest b (List.mem_cons_of_mem _ hb), List.cons_append]
    refine insertInOrder_of_forall fun b hb => ?_
    rcases List.mem_append.1 hb with hb | hb
    · exact ha b hb
    · exact hrest a List.mem_cons_self b ((perm_stableSort before rest).mem_iff.1 hb)

theorem pairwise_insertInOrder (htotal : ∀ a b, before a b = true ∨ before b a = true)
    (htrans : ∀ a b c, before a b = true → before b c = true → before a c = true) (a : α)
    {elements : List α} (h : elements.Pairwise (before · ·)) :
    (insertInOrder before a elements).Pairwise (before · ·) := by
  induction elements with
  | nil => simp [insertInOrder]
  | cons b rest ih =>
    obtain ⟨hb, hrest⟩ := List.pairwise_cons.1 h
    rw [insertInOrder]
    split
    · next hab =>
      refine List.pairwise_cons.2 ⟨fun c hc => ?_, h⟩
      rcases List.mem_cons.1 hc with rfl | hc
      · exact hab
      · exact htrans a b c hab (hb c hc)
    · next hab =>
      refine List.pairwise_cons.2 ⟨fun c hc => ?_, ih hrest⟩
      rcases List.mem_cons.1 ((perm_insertInOrder before a rest).mem_iff.1 hc) with rfl | hc
      · exact (htotal c b).resolve_left hab
      · exact hb c hc

theorem pairwise_stableSort (htotal : ∀ a b, before a b = true ∨ before b a = true)
    (htrans : ∀ a b c, before a b = true → before b c = true → before a c = true)
    (elements : List α) : (stableSort before elements).Pairwise (before · ·) := by
  induction elements with
  | nil => exact .nil
  | cons a rest ih => exact pairwise_insertInOrder htotal htrans a ih

end Order

/-! ### Equals -/

section Equals
variable {β : Type} [DecidableEq β] {before : α → α → Bool} {key : α → β}

theorem filter_insertInOrder (hkey : ∀ a b, key a = key b → before a b = true) (a : α)
    (elements : List α) (k : β) :
    (insertInOrder before a elements).filter (key · = k) = (a :: elements).filter (key · = k) := by
  induction elements with
  | nil => rfl
  | cons b rest ih =>
    rw [insertInOrder]
    split
    · rfl
    · next hab =>
      have hne : key a ≠ key b := fun h => hab (hkey a b h)
      rw [List.filter_cons, ih]
      by_cases hb : key b = k
      · have ha : key a ≠ k := fun h => hne (h.trans hb.symm)
        simp [ha, hb]
      · simp [List.filter_cons, hb]

/-- Elements with one key keep their order. -/
theorem filter_stableSort (hkey : ∀ a b, key a = key b → before a b = true) (elements : List α)
    (k : β) : (stableSort before elements).filter (key · = k) = elements.filter (key · = k) := by
  induction elements with
  | nil => rfl
  | cons a rest ih =>
    rw [stableSort, filter_insertInOrder hkey, List.filter_cons, List.filter_cons, ih]

theorem mem_of_filter_eq {xs ys : List α} {a : α}
    (h : ∀ k, xs.filter (key · = k) = ys.filter (key · = k)) (ha : a ∈ xs) : a ∈ ys := by
  have hfilter : a ∈ xs.filter (key · = key a) := List.mem_filter.2 ⟨ha, decide_eq_true rfl⟩
  rw [h] at hfilter
  exact (List.mem_filter.1 hfilter).1

/-- Lists in order are equal if for each key they hold the same elements in the same order. -/
theorem eq_of_pairwise_of_filter {xs ys : List α} (hrefl : ∀ a, before a a = true)
    (hanti : ∀ a b, before a b = true → before b a = true → key a = key b)
    (hxs : xs.Pairwise (before · ·)) (hys : ys.Pairwise (before · ·))
    (h : ∀ k, xs.filter (key · = k) = ys.filter (key · = k)) : xs = ys := by
  induction xs generalizing ys with
  | nil =>
    cases ys with
    | nil => rfl
    | cons b ys =>
      exact absurd (mem_of_filter_eq (fun k => (h k).symm) List.mem_cons_self) List.not_mem_nil
  | cons a xs ih =>
    cases ys with
    | nil => exact absurd (mem_of_filter_eq h List.mem_cons_self) List.not_mem_nil
    | cons b ys =>
      obtain ⟨ha, hfront⟩ := List.pairwise_cons.1 hxs
      obtain ⟨hb, hback⟩ := List.pairwise_cons.1 hys
      have hab : before a b = true := by
        have hmem := mem_of_filter_eq (fun k => (h k).symm) (List.mem_cons_self (l := ys))
        rcases List.mem_cons.1 hmem with rfl | hmem
        · exact hrefl _
        · exact ha b hmem
      have hba : before b a = true := by
        rcases List.mem_cons.1 (mem_of_filter_eq h List.mem_cons_self) with rfl | hmem
        · exact hrefl _
        · exact hb a hmem
      have hkey := hanti a b hab hba
      -- both lists begin the part of this key
      have hheads := h (key a)
      simp only [List.filter_cons, hkey, decide_true, if_true] at hheads
      obtain ⟨rfl, -⟩ := List.cons.inj hheads
      refine congrArg (a :: ·) (ih hfront hback fun k => ?_)
      have hk := h k
      rw [List.filter_cons, List.filter_cons] at hk
      split at hk
      · exact (List.cons.inj hk).2
      · exact hk

/-- **The stable sort by a key is the one list** that is in order and holds, for each key, the
same elements in the same order. -/
theorem eq_stableSort {xs ys : List α} (htotal : ∀ a b, before a b = true ∨ before b a = true)
    (htrans : ∀ a b c, before a b = true → before b c = true → before a c = true)
    (hkey : ∀ a b, (before a b = true ∧ before b a = true) ↔ key a = key b)
    (hys : ys.Pairwise (before · ·))
    (h : ∀ k, ys.filter (key · = k) = xs.filter (key · = k)) : ys = stableSort before xs := by
  refine eq_of_pairwise_of_filter (fun a => ((hkey a a).2 rfl).1)
    (fun a b hab hba => (hkey a b).1 ⟨hab, hba⟩) hys (pairwise_stableSort htotal htrans xs)
    fun k => ?_
  rw [h, filter_stableSort fun a b hab => ((hkey a b).2 hab).1]

end Equals

end Bindery
