import Mathlib.Data.List.Forall2
import Bindery.Text.SnakeCase

/-! What a cache of conversions answers.

A cache forgets and remembers, but as long as what it remembers is right, every answer is the
`snakeCase` of the name, and what it remembers stays right (`Right.convert`). It never remembers
more than it may (`Kept.call`). So whatever a new cache is asked, one call after the other, it
answers as if it had no memory, and the name that it was asked last is remembered unless there is
no room for any (`answers_exact`). -/
namespace Bindery.Text.SnakeCache
variable {cache : SnakeCache}

/-- Every conversion that is remembered is the right one. -/
def Right (cache : SnakeCache) : Prop :=
  ∀ name converted, cache.known.lookup name = some converted → converted = snakeCase name

theorem right_standard : standard.Right := by
  intro name converted h
  cases h

/-- What a conversion does. A name that is known is only looked up. Any other is converted, and
remembered if anything may be, with what was known before as far as there is room. -/
theorem convert_cases (cache : SnakeCache) (name : String) :
    (∃ converted, cache.known.lookup name = some converted ∧
      cache.convert name = (cache, converted)) ∨
    (cache.capacity = 0 ∧ cache.convert name = (cache, snakeCase name)) ∨
    (cache.capacity ≠ 0 ∧ ∃ kept,
      (kept = [] ∨ kept = cache.known ∧ cache.size < cache.capacity) ∧
      cache.convert name =
        ({ cache with known := Entries.put name (snakeCase name) kept }, snakeCase name)) := by
  unfold SnakeCache.convert
  split
  · next converted hknown => exact .inl ⟨converted, hknown, rfl⟩
  · by_cases hroom : cache.capacity = 0
    · exact .inr (.inl ⟨hroom, if_pos hroom⟩)
    · refine .inr (.inr ⟨hroom, _, ?_, if_neg hroom⟩)
      split
      · exact .inl rfl
      · next hfree => exact .inr ⟨rfl, Nat.lt_of_not_le hfree⟩

/-- One conversion: the answer is right, and so is what the cache then remembers. -/
theorem Right.convert (h : cache.Right) (name : String) :
    (cache.convert name).2 = snakeCase name ∧ (cache.convert name).1.Right := by
  rcases cache.convert_cases name with
    ⟨converted, hknown, hstep⟩ | ⟨_, hstep⟩ | ⟨_, kept, hkept, hstep⟩ <;> rw [hstep]
  · exact ⟨h name converted hknown, h⟩
  · exact ⟨rfl, h⟩
  · refine ⟨rfl, fun other converted hother => ?_⟩
    rw [Entries.lookup_put] at hother
    split at hother
    · next hsame => rw [hsame, ← Option.some.inj hother]
    · -- what is kept was remembered before
      rcases hkept with rfl | ⟨rfl, _⟩
      · cases hother
      · exact h other converted hother

/-! ### One call -/

/-- What a cache is asked to do. -/
inductive Call where
  | convert (name : String)
  | clear

/-- What a call answers without any memory: a conversion the converted name, forgetting nothing. -/
def Call.answer : Call → Option String
  | .convert name => some (snakeCase name)
  | .clear => none

/-- Answer a call. -/
def call (cache : SnakeCache) : Call → SnakeCache × Option String
  | .convert name => ((cache.convert name).1, some (cache.convert name).2)
  | .clear => (cache.clear, none)

/-- The state of a cache that may remember `capacity` conversions: those that it remembers are
right, each is of another name, and there is room for them. -/
structure Kept (capacity : Nat) (cache : SnakeCache) : Prop where
  capacity_eq : cache.capacity = capacity
  right : cache.Right
  nodup : (Entries.keys cache.known).Nodup
  size_le : cache.size ≤ capacity

section Kept
variable {capacity : Nat}

theorem kept_new (capacity : Nat) : Kept capacity { capacity } where
  capacity_eq := rfl
  right := nofun
  nodup := .nil
  size_le := Nat.zero_le capacity

/-- Each entry that is remembered is the conversion of its name. -/
theorem Kept.entry_eq (h : Kept capacity cache) {name converted : String}
    (hentry : (name, converted) ∈ cache.known) : converted = snakeCase name :=
  h.right name converted ((Entries.lookup_eq_some h.nodup).2 hentry)

/-- There is room for a name that is not known, if everything is forgotten when there is none. -/
theorem Kept.convert (h : Kept capacity cache) (name : String) :
    Kept capacity (cache.convert name).1 := by
  have hright := (h.right.convert name).2
  rcases cache.convert_cases name with
    ⟨converted, _, hstep⟩ | ⟨_, hstep⟩ | ⟨hroom, kept, hkept, hstep⟩ <;> rw [hstep] at hright ⊢
  · exact h
  · exact h
  · have hnodup : (Entries.keys kept).Nodup := by
      rcases hkept with rfl | ⟨rfl, _⟩
      · exact .nil
      · exact h.nodup
    have hfree : kept.length < capacity := by
      rw [← h.capacity_eq]
      rcases hkept with rfl | ⟨rfl, hsize⟩
      · exact Nat.pos_of_ne_zero hroom
      · exact hsize
    exact ⟨h.capacity_eq, hright, Entries.nodup_keys_put hnodup,
      Nat.le_trans (Entries.length_put_le name (snakeCase name) kept) hfree⟩

/-- Every call keeps the state, and answers as if there were no memory. -/
theorem Kept.call (h : Kept capacity cache) (c : Call) :
    Kept capacity (cache.call c).1 ∧ (cache.call c).2 = c.answer := by
  cases c with
  | convert name => exact ⟨h.convert name, congrArg some (h.right.convert name).1⟩
  | clear => exact ⟨⟨h.capacity_eq, nofun, .nil, Nat.zero_le capacity⟩, rfl⟩

/-- A conversion is remembered afterwards, if anything may be. -/
theorem Kept.mem_known (h : Kept capacity cache) (hpos : capacity ≠ 0) (name : String) :
    (name, snakeCase name) ∈ (cache.convert name).1.known := by
  refine (Entries.lookup_eq_some (h.convert name).nodup).1 ?_
  rcases cache.convert_cases name with
    ⟨converted, hknown, hstep⟩ | ⟨hnone, _⟩ | ⟨_, kept, _, hstep⟩
  · rw [hstep, hknown, h.right name converted hknown]
  · exact absurd (h.capacity_eq ▸ hnone) hpos
  · rw [hstep, Entries.lookup_put, if_pos rfl]

end Kept

/-! ### Many calls -/

/-- Answer calls one after the other: the cache after each of them, and its answer. -/
def answers (cache : SnakeCache) : List Call → List (SnakeCache × Option String)
  | [] => []
  | c :: rest => cache.call c :: answers (cache.call c).1 rest

/-- **Remembering makes no difference.** Let a new cache of any capacity be asked to convert names
and to forget everything, in any order. Each conversion answers the `snakeCase` of its name. After
each call every entry that is remembered has the `snakeCase` of its name, there are no more of them
than the capacity, so none if it is zero, and otherwise a name that was converted is one of them. -/
theorem answers_exact (capacity : Nat) (calls : List Call) :
    List.Forall₂ (fun (c : Call) (after : SnakeCache × Option String) =>
      after.2 = c.answer ∧
      (∀ entry ∈ after.1.known, entry.2 = snakeCase entry.1) ∧
      after.1.size ≤ capacity ∧ (capacity = 0 → after.1.size = 0) ∧
      (capacity ≠ 0 → ∀ name, c = .convert name → (name, snakeCase name) ∈ after.1.known))
      calls (({ capacity } : SnakeCache).answers calls) := by
  generalize hcache : ({ capacity } : SnakeCache) = cache
  have hkept : Kept capacity cache := hcache ▸ kept_new capacity
  clear hcache
  -- Nothing but the state matters for what follows a call.
  induction calls generalizing cache with
  | nil => exact .nil
  | cons c rest ih =>
    obtain ⟨hafter, hanswer⟩ := hkept.call c
    refine .cons ⟨hanswer, fun _ hentry => hafter.entry_eq hentry, hafter.size_le, ?_, ?_⟩
      (ih _ hafter)
    · exact fun hzero => Nat.le_zero.1 (hzero ▸ hafter.size_le)
    · rintro hpos name rfl
      exact hkept.mem_known hpos name

end Bindery.Text.SnakeCache
