import Mathlib.Data.List.Basic

/-! Elements of a list, each at its turn.

When the elements of a list are dealt with one after the other, a split `front ++ a :: back`
is the turn of `a`: `front` has been dealt with, `back` is still to come. One element more at
the end adds one turn and leaves the others as they are. -/
namespace Bindery
variable {α : Type} {xs front back : List α} {x a : α}

theorem concat_eq_append_cons_iff :
    xs ++ [x] = front ++ a :: back ↔
      (front = xs ∧ a = x ∧ back = []) ∨ ∃ rest, back = rest ++ [x] ∧ xs = front ++ a :: rest := by
  constructor
  · intro hsplit
    cases List.eq_nil_or_concat' back with
    | inl hlast =>
      subst hlast
      obtain ⟨hfront, ha⟩ := List.append_inj' hsplit rfl
      exact .inl ⟨hfront.symm, (List.singleton_inj.1 ha).symm, rfl⟩
    | inr hmore =>
      obtain ⟨rest, last, rfl⟩ := hmore
      rw [← List.cons_append, ← List.append_assoc] at hsplit
      obtain ⟨hxs, hlast⟩ := List.append_inj' hsplit rfl
      obtain rfl := List.singleton_inj.1 hlast
      exact .inr ⟨rest, rfl, hxs⟩
  · intro h
    cases h with
    | inl hlast =>
      obtain ⟨rfl, rfl, rfl⟩ := hlast
      rfl
    | inr hmore =>
      obtain ⟨rest, rfl, rfl⟩ := hmore
      simp

/-- What holds at some turn holds at an earlier one or at the last. -/
theorem exists_turn_concat_iff {P : List α → Prop} :
    (∃ front back, xs ++ [x] = front ++ a :: back ∧ P front) ↔
      (∃ front back, xs = front ++ a :: back ∧ P front) ∨ (a = x ∧ P xs) := by
  simp only [concat_eq_append_cons_iff]
  constructor
  · rintro ⟨front, back, ⟨rfl, ha, _⟩ | ⟨rest, _, hsplit⟩, h⟩
    · exact .inr ⟨ha, h⟩
    · exact .inl ⟨front, rest, hsplit, h⟩
  · rintro (⟨front, back, hsplit, h⟩ | ⟨ha, h⟩)
    · exact ⟨front, back ++ [x], .inr ⟨back, rfl, hsplit⟩, h⟩
    · exact ⟨xs, [], .inl ⟨rfl, ha, rfl⟩, h⟩

end Bindery
