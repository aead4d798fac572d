/-! Bindings in the order in which their keys first came.

The members of a JSON object, the units of a package and the models of an ordering
are all listed in the order in which they were named, and naming one again changes
what it is bound to but not where it stands. `put` is that operation; core's
`List.lookup` reads it back (`lookup_put`). -/
namespace Bindery

/-- Keys with what each is bound to, in order. -/
abbrev Entries (κ α : Type) := List (κ × α)

namespace Entries
variable {κ α : Type} [DecidableEq κ]

/-- Bind `key` to `value`: in its place if it is bound, else at the end. -/
def put (key : κ) (value : α) : Entries κ α → Entries κ α
  | [] => [(key, value)]
  | (k, a) :: rest => if k = key then (key, value) :: rest else (k, a) :: put key value rest

def has (key : κ) (entries : Entries κ α) : Bool := entries.any (·.1 = key)

/-- Bind `key` only if it is not bound yet. -/
def putNew (key : κ) (value : α) (entries : Entries κ α) : Entries κ α :=
  if has key entries then entries else put key value entries

def ofList (bindings : List (κ × α)) : Entries κ α :=
  bindings.foldl (fun entries b => put b.1 b.2 entries) []

def keys (entries : Entries κ α) : List κ := entries.map (·.1)

def values (entries : Entries κ α) : List α := entries.map (·.2)

@[simp] theorem has_eq_true {key : κ} {entries : Entries κ α} :
    has key entries = true ↔ key ∈ keys entries := by
  simp only [has, keys, List.any_eq_true, List.mem_map, decide_eq_true_eq]

/-- What is bound last is what is found. -/
theorem lookup_put [BEq κ] [LawfulBEq κ] (key k : κ) (value : α) (entries : Entries κ α) :
    (put key value entries).lookup k = if k = key then some value else entries.lookup k := by
  induction entries with
  | nil =>
    by_cases h : k = key
    · simp [put, h]
    · simp [put, List.lookup_cons, h, beq_false_of_ne h]
  | cons entry rest ih =>
    obtain ⟨k', a⟩ := entry
    by_cases hk : k' = key
    · subst hk
      by_cases h : k = k'
      · simp [put, h]
      · simp [put, List.lookup_cons, h, beq_false_of_ne h]
    · by_cases h : k = k'
      · subst h
        simp [put, hk]
      · simp [put, List.lookup_cons, hk, beq_false_of_ne h, ih]

/-- A key that is bound keeps its place, a new one comes last. -/
theorem keys_put (key : κ) (value : α) (entries : Entries κ α) :
    keys (put key value entries) =
      if key ∈ keys entries then keys entries else keys entries ++ [key] := by
  induction entries with
  | nil => simp [put, keys]
  | cons entry rest ih =>
    obtain ⟨k, a⟩ := entry
    by_cases hk : k = key
    · simp [put, keys, hk]
    · have hk' : key ≠ k := fun h => hk h.symm
      have e : keys (put key value ((k, a) :: rest)) = k :: keys (put key value rest) := by
        simp [put, keys, hk]
      rw [e, ih]
      by_cases hm : key ∈ keys rest <;> simp_all [keys]

theorem length_put_le (key : κ) (value : α) (entries : Entries κ α) :
    (put key value entries).length ≤ entries.length + 1 := by
  have hkeys := congrArg List.length (keys_put key value entries)
  rw [keys, List.length_map] at hkeys
  rw [hkeys]
  split
  · rw [keys, List.length_map]
    exact Nat.le_succ _
  · simp [keys]

theorem mem_keys_put {key k : κ} {value : α} {entries : Entries κ α} :
    k ∈ keys (put key value entries) ↔ k = key ∨ k ∈ keys entries := by
  rw [keys_put]
  split
  · next hk => exact ⟨.inr, fun h => h.elim (fun e => e ▸ hk) id⟩
  · simp [or_comm]

theorem mem_keys_putNew {key k : κ} {value : α} {entries : Entries κ α} :
    k ∈ keys (putNew key value entries) ↔ k = key ∨ k ∈ keys entries := by
  rw [putNew]
  split
  · next hk => exact ⟨.inr, fun h => h.elim (fun e => e ▸ has_eq_true.1 hk) id⟩
  · exact mem_keys_put

omit [DecidableEq κ] in
theorem lookup_eq_none [BEq κ] [LawfulBEq κ] {key : κ} {entries : Entries κ α}
    (h : key ∉ keys entries) : entries.lookup key = none := by
  rw [List.lookup_eq_none_iff]
  intro entry he
  have hne : key ≠ entry.1 := fun e => h (e ▸ List.mem_map_of_mem he)
  exact bne_iff_ne.2 hne

omit [DecidableEq κ] in
/-- What is found is what is listed, if no key is listed twice. -/
theorem lookup_eq_some [BEq κ] [LawfulBEq κ] {key : κ} {value : α} {entries : Entries κ α}
    (h : (keys entries).Nodup) : entries.lookup key = some value ↔ (key, value) ∈ entries := by
  rw [List.lookup_eq_some_iff]
  constructor
  · rintro ⟨front, back, rfl, _⟩
    exact List.mem_append_right _ List.mem_cons_self
  · intro hmem
    obtain ⟨front, back, rfl⟩ := List.append_of_mem hmem
    refine ⟨front, back, rfl, fun entry he => bne_iff_ne.2 ?_⟩
    rw [keys, List.map_append, List.map_cons] at h
    exact ((List.nodup_append.1 h).2.2 _ (List.mem_map_of_mem he) _ List.mem_cons_self).symm

/-- A new key comes last. -/
theorem put_of_not_mem {key : κ} {value : α} {entries : Entries κ α} (h : key ∉ keys entries) :
    put key value entries = entries ++ [(key, value)] := by
  induction entries with
  | nil => rfl
  | cons entry rest ih =>
    obtain ⟨k, a⟩ := entry
    simp only [keys, List.map_cons, List.mem_cons, not_or] at h
    rw [put, if_neg (Ne.symm h.1), ih h.2, List.cons_append]

theorem nodup_keys_put {key : κ} {value : α} {entries : Entries κ α}
    (h : (keys entries).Nodup) : (keys (put key value entries)).Nodup := by
  rw [keys_put]
  split
  · exact h
  · next hk =>
    refine List.nodup_append.2 ⟨h, by simp, fun a ha b hb => ?_⟩
    rw [List.mem_singleton.1 hb]
    rintro rfl
    exact hk ha

theorem nodup_keys_putNew {key : κ} {value : α} {entries : Entries κ α}
    (h : (keys entries).Nodup) : (keys (putNew key value entries)).Nodup := by
  rw [putNew]
  split
  · exact h
  · exact nodup_keys_put h

/-- Bindings of new keys come after those that are there. -/
theorem foldl_put_of_nodup {entries bindings : Entries κ α}
    (h : (keys (entries ++ bindings)).Nodup) :
    bindings.foldl (fun entries b => put b.1 b.2 entries) entries = entries ++ bindings := by
  induction bindings generalizing entries with
  | nil => simp
  | cons b rest ih =>
    have hkeys : keys (entries ++ b :: rest) = keys entries ++ b.1 :: keys rest := by simp [keys]
    have hnew : b.1 ∉ keys entries := by
      rw [hkeys] at h
      exact fun hb => (List.nodup_append.1 h).2.2 _ hb _ List.mem_cons_self rfl
    rw [List.foldl_cons, put_of_not_mem hnew, ih (by simpa using h)]
    simp

theorem nodup_keys_foldl_put {entries : Entries κ α} (bindings : List (κ × α))
    (h : (keys entries).Nodup) :
    (keys (bindings.foldl (fun entries b => put b.1 b.2 entries) entries)).Nodup := by
  induction bindings generalizing entries with
  | nil => exact h
  | cons b rest ih => exact ih (nodup_keys_put h)

/-- Bindings all stay as they are exactly if no key comes twice. -/
theorem ofList_eq_self_iff {bindings : List (κ × α)} :
    ofList bindings = bindings ↔ (keys bindings).Nodup := by
  constructor
  · intro h
    rw [← h]
    exact nodup_keys_foldl_put bindings .nil
  · intro h
    exact foldl_put_of_nodup (by simpa using h)

end Entries

end Bindery
