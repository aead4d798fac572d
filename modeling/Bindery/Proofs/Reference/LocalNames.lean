import Bindery.Reference.LocalNames

/-! Local names are kept apart.

A free name is one that nothing has (`freeName_not_mem`): of one more numbers than there
are names, one gives a name that is not among them. So a table of local names that starts
with reserved names and grows by `add` gives different locations different names, none of
them reserved (`Separate`), and a location keeps its name as the table grows (`Extends`). -/
namespace Bindery

/-! ### Free names -/

theorem toString_inj {a b : Nat} (h : toString a = toString b) : a = b := by
  have hd : Nat.toDigits 10 a = Nat.toDigits 10 b := by
    simpa only [Nat.toString_eq_repr, Nat.toList_repr] using congrArg String.toList h
  have hn := congrArg (Nat.ofDigitChars 10 · 0) hd
  simpa using hn

theorem dot_not_mem_toString (n : Nat) : '.' ∉ (toString n).toList := by
  intro h
  rw [Nat.toString_eq_repr, Nat.toList_repr] at h
  exact absurd (Nat.isDigit_of_mem_toDigits (by decide) (by decide) h) (by decide)

theorem append_toString_inj {base : String} {a b : Nat}
    (h : base ++ toString a = base ++ toString b) : a = b := by
  apply toString_inj
  apply String.toList_inj.1
  simpa using congrArg String.toList h

/-- The search stops at a number that gives a free name, or at its last one; every number
before gives a used name. -/
theorem freeSuffix_spec (base : String) (used : List String) (fuel n : Nat) :
    n ≤ freeSuffix base used fuel n ∧ freeSuffix base used fuel n ≤ n + fuel ∧
      (∀ j, n ≤ j → j < freeSuffix base used fuel n → base ++ toString j ∈ used) ∧
      (freeSuffix base used fuel n < n + fuel →
        base ++ toString (freeSuffix base used fuel n) ∉ used) := by
  induction fuel generalizing n with
  | zero => simp only [freeSuffix]; exact ⟨by omega, by omega, fun _ _ _ => by omega, by omega⟩
  | succ fuel ih =>
    rw [freeSuffix]
    split
    · next hn =>
      obtain ⟨hge, hle, hused, hfree⟩ := ih (n + 1)
      refine ⟨by omega, by omega, fun j hj hlt => ?_, fun hlt => hfree (by omega)⟩
      by_cases he : j = n
      · exact he ▸ hn
      · exact hused j (by omega) hlt
    · next hn => exact ⟨by omega, by omega, fun _ _ _ => by omega, fun _ => hn⟩

/-- **A free name is free.** -/
theorem freeName_not_mem (base : String) (used : List String) : freeName base used ∉ used := by
  rw [freeName]
  split
  · intro hmem
    obtain ⟨_, hle, hused, hfree⟩ := freeSuffix_spec base used used.length 2
    have hlast : freeSuffix base used used.length 2 = 2 + used.length := by
      by_cases hlt : freeSuffix base used used.length 2 < 2 + used.length
      · exact absurd hmem (hfree hlt)
      · omega
    -- All numbers up to the last give used names, one more than there are.
    have hsub : (List.range (used.length + 1)).map (fun j => base ++ toString (j + 2)) ⊆ used := by
      intro name hname
      obtain ⟨j, hj, rfl⟩ := List.mem_map.1 hname
      rw [List.mem_range] at hj
      by_cases he : j + 2 = 2 + used.length
      · rw [he, ← hlast]
        exact hmem
      · exact hused (j + 2) (by omega) (by omega)
    have hnodup : ((List.range (used.length + 1)).map
        (fun j => base ++ toString (j + 2))).Nodup :=
      (List.pairwise_map.2 (List.nodup_range.imp fun hne he => hne (by
        have := append_toString_inj he
        omega)))
    have := hnodup.length_le_of_subset hsub
    simp only [List.length_map, List.length_range] at this
    omega
  · assumption

theorem freeName_eq (base : String) (used : List String) :
    freeName base used = base ∨ ∃ n : Nat, freeName base used = base ++ toString n := by
  rw [freeName]
  split
  · exact .inr ⟨_, rfl⟩
  · exact .inl rfl

namespace LocalNames

/-- Every location that has a name keeps it. -/
def Extends (names names' : LocalNames) : Prop :=
  ∀ key name, names.assigned.lookup key = some name → names'.assigned.lookup key = some name

theorem Extends.refl (names : LocalNames) : Extends names names := fun _ _ h => h

theorem Extends.trans {a b c : LocalNames} (h : Extends a b) (h' : Extends b c) : Extends a c :=
  fun key name hk => h' key name (h key name hk)

/-- Different locations have different names, none of them reserved; a name is the
imported name, with a number behind it or without. -/
structure Separate (reserved : List String) (names : LocalNames) : Prop where
  reserved_used : ∀ name ∈ reserved, name ∈ names.used
  assigned_used : ∀ key name, names.assigned.lookup key = some name → name ∈ names.used
  not_reserved : ∀ key name, names.assigned.lookup key = some name → name ∉ reserved
  injective : ∀ key key' name, names.assigned.lookup key = some name →
    names.assigned.lookup key' = some name → key = key'
  based : ∀ key name, names.assigned.lookup key = some name →
    name = key.2 ∨ ∃ n : Nat, name = key.2 ++ toString n

theorem separate_reserving (reserved : List String) : Separate reserved (reserving reserved) where
  reserved_used := fun _ h => h
  assigned_used := fun _ _ h => by cases h
  not_reserved := fun _ _ h => by cases h
  injective := fun _ _ _ h => by cases h
  based := fun _ _ h => by cases h

section Add
variable {reserved : List String} {names : LocalNames} {i : RelativeImport}

theorem lookup_add (names : LocalNames) (i : RelativeImport) :
    (names.add i).1.assigned.lookup i.key = some (names.add i).2 := by
  rw [add]
  split
  · next h => exact h
  · simp [Entries.lookup_put]

theorem extends_add (names : LocalNames) (i : RelativeImport) : Extends names (names.add i).1 := by
  intro key name h
  rw [add]
  split
  · exact h
  · next hnone =>
    rw [Entries.lookup_put, if_neg]
    · exact h
    · rintro rfl
      rw [hnone] at h
      cases h

theorem Separate.add (h : Separate reserved names) (i : RelativeImport) :
    Separate reserved (names.add i).1 := by
  rw [LocalNames.add]
  split
  · exact h
  · have hfree := freeName_not_mem i.name names.used
    -- An entry of the new table is the new one or an old one.
    have hcases : ∀ key name,
        (Entries.put i.key (freeName i.name names.used) names.assigned).lookup key = some name →
        (key = i.key ∧ name = freeName i.name names.used) ∨
          names.assigned.lookup key = some name := by
      intro key name hk
      rw [Entries.lookup_put] at hk
      split at hk
      · next he => exact .inl ⟨he, (Option.some.inj hk).symm⟩
      · exact .inr hk
    refine ⟨?_, ?_, ?_, ?_, ?_⟩
    · exact fun name hr => List.mem_cons_of_mem _ (h.reserved_used name hr)
    · intro key name hk
      rcases hcases key name hk with ⟨_, rfl⟩ | hk
      · exact List.mem_cons_self
      · exact List.mem_cons_of_mem _ (h.assigned_used key name hk)
    · intro key name hk hr
      rcases hcases key name hk with ⟨_, rfl⟩ | hk
      · exact hfree (h.reserved_used _ hr)
      · exact h.not_reserved key name hk hr
    · intro key key' name hk hk'
      rcases hcases key name hk with ⟨rfl, rfl⟩ | hk <;>
        rcases hcases key' _ hk' with ⟨rfl, he⟩ | hk'
      · rfl
      · exact absurd (h.assigned_used key' _ hk') hfree
      · exact absurd (he ▸ h.assigned_used key _ hk) hfree
      · exact h.injective key key' name hk hk'
    · intro key name hk
      rcases hcases key name hk with ⟨rfl, rfl⟩ | hk
      · exact freeName_eq i.name names.used
      · exact h.based key name hk

end Add

def nameAt (names : LocalNames) (i : RelativeImport) : String :=
  (names.assigned.lookup i.key).getD i.name

/-- A local name has dots only if the imported name has. -/
theorem Separate.dot_not_mem {reserved : List String} {names : LocalNames}
    (h : Separate reserved names) {i : RelativeImport} (hi : '.' ∉ i.name.toList) :
    '.' ∉ (names.nameAt i).toList := by
  rw [nameAt]
  cases hk : names.assigned.lookup i.key with
  | none => exact hi
  | some name =>
    rcases h.based i.key name hk with rfl | ⟨n, rfl⟩
    · exact hi
    · simp only [Option.getD_some, String.toList_append, List.mem_append, not_or]
      exact ⟨hi, dot_not_mem_toString n⟩

end LocalNames

end Bindery
