import Mathlib.Data.List.Dedup
import Mathlib.Data.List.Induction
import Mathlib.Order.Bounds.Defs
import Bindery.Data.Turns
import Bindery.Proofs.Reference.LocalNames

/-! Which names locations are given.

The search for a free name tries one number after the other (`Tries`). It passes only numbers
that give used names, so it ends at the least number that does not (`tries_iff_isLeast`), and as
the used names are finitely many it does end (`fits_freeName`). What a table of local names has
answered so far says which names it holds and which are used (`Answered`), one more request keeps
that (`Answered.add`), and so any sequence of requests is answered with one name for each location
(`names_given`). -/
namespace Bindery

/-! ### Trying numbers -/

/-- Numbers are tried behind a base, one after the other, with no bound on how many: a search that
begins at one number ends at another if the name with this one is the first that is not used. -/
inductive Tries (base : String) (used : List String) : Nat → Nat → Prop where
  | free {n : Nat} : base ++ toString n ∉ used → Tries base used n n
  | next {n last : Nat} : base ++ toString n ∈ used → Tries base used (n + 1) last →
      Tries base used n last

section Search
variable {base name : String} {used used' : List String} {n last : Nat}

/-- A search ends at a number exactly if it is the least one that gives a free name. -/
theorem tries_iff_isLeast :
    Tries base used n last ↔ IsLeast {k : Nat | n ≤ k ∧ base ++ toString k ∉ used} last := by
  constructor
  · intro h
    induction h with
    | free hfree => exact ⟨⟨Nat.le_refl _, hfree⟩, fun k hk => hk.1⟩
    | @next n last hused _ ih =>
      obtain ⟨⟨hlt, hfree⟩, hleast⟩ := ih
      refine ⟨⟨Nat.le_of_succ_le hlt, hfree⟩, fun k ⟨hk, hkfree⟩ => hleast ⟨?_, hkfree⟩⟩
      have hne : n ≠ k := by
        rintro rfl
        exact hkfree hused
      exact Nat.lt_of_le_of_ne hk hne
  · intro h
    -- The induction is on how far the search has to go.
    obtain ⟨steps, hsteps⟩ := Nat.exists_eq_add_of_le h.1.1
    induction steps generalizing n with
    | zero =>
      obtain rfl : last = n := hsteps
      exact .free h.1.2
    | succ steps ih =>
      have hused : base ++ toString n ∈ used := by
        by_contra hfree
        have hle := h.2 ⟨Nat.le_refl n, hfree⟩
        omega
      have hrest : IsLeast {k : Nat | n + 1 ≤ k ∧ base ++ toString k ∉ used} last :=
        ⟨⟨by omega, h.1.2⟩, fun k ⟨hk, hkfree⟩ => h.2 ⟨Nat.le_of_succ_le hk, hkfree⟩⟩
      exact .next hused (ih hrest (by omega))

/-- The name that fits where some names are used: the base, if it is free; and if it is not, the
search from 2 on ends, at the least number that gives a free name, and this is the one. -/
structure Fits (used : List String) (base name : String) : Prop where
  free : base ∉ used → name = base
  taken : base ∈ used → ∃ n, Tries base used 2 n ∧
    IsLeast {k : Nat | 2 ≤ k ∧ base ++ toString k ∉ used} n ∧ name = base ++ toString n

/-- **The search ends at a name that fits.** -/
theorem fits_freeName (base : String) (used : List String) :
    Fits used base (freeName base used) where
  free hfree := by rw [freeName, if_neg hfree]
  taken hused := by
    obtain ⟨hge, _, hpassed, _⟩ := freeSuffix_spec base used used.length 2
    have hname : freeName base used =
        base ++ toString (freeSuffix base used used.length 2) := by rw [freeName, if_pos hused]
    have hleast : IsLeast {k : Nat | 2 ≤ k ∧ base ++ toString k ∉ used}
        (freeSuffix base used used.length 2) := by
      refine ⟨⟨hge, hname ▸ freeName_not_mem base used⟩, fun k hk => ?_⟩
      by_contra hlt
      exact hk.2 (hpassed k hk.1 (Nat.not_le.1 hlt))
    exact ⟨_, tries_iff_isLeast.2 hleast, hleast, hname⟩

/-- It matters only which names are used. -/
theorem Fits.congr (h : Fits used base name) (hsame : ∀ x, x ∈ used ↔ x ∈ used') :
    Fits used' base name where
  free hfree := h.free (mt (hsame base).1 hfree)
  taken hused := by
    obtain ⟨n, _, hleast, hname⟩ := h.taken ((hsame base).2 hused)
    simp only [hsame] at hleast
    exact ⟨n, tries_iff_isLeast.2 hleast, hleast, hname⟩

end Search

/-! ### One request after the other -/

namespace LocalNames
variable {reserved : List String} {names : LocalNames}
  {answers : List (RelativeImport × String)}

/-- One more request puts at most its own location into the table. -/
theorem mem_keys_add (names : LocalNames) (i : RelativeImport) {key : String × String} :
    key ∈ Entries.keys (names.add i).1.assigned ↔
      key = i.key ∨ key ∈ Entries.keys names.assigned := by
  rw [LocalNames.add]
  split
  · next name hsome =>
    have hold : i.key ∈ Entries.keys names.assigned := by
      by_contra hnew
      rw [Entries.lookup_eq_none hnew] at hsome
      cases hsome
    exact ⟨.inr, fun hkey => hkey.elim (fun he => he ▸ hold) id⟩
  · exact Entries.mem_keys_put

theorem nodup_keys_add (h : (Entries.keys names.assigned).Nodup) (i : RelativeImport) :
    (Entries.keys (names.add i).1.assigned).Nodup := by
  rw [LocalNames.add]
  split
  · exact h
  · exact Entries.nodup_keys_put h

theorem Separate.mem_used_add (h : names.Separate reserved) (i : RelativeImport) {name : String} :
    name ∈ (names.add i).1.used ↔ name = (names.add i).2 ∨ name ∈ names.used := by
  rw [LocalNames.add]
  split
  · next given hsome =>
    have hold := h.assigned_used i.key given hsome
    exact ⟨.inr, fun hname => hname.elim (fun he => he ▸ hold) id⟩
  · exact List.mem_cons

theorem add_of_lookup_eq_none {i : RelativeImport} (h : names.assigned.lookup i.key = none) :
    (names.add i).2 = freeName i.name names.used := by
  simp [LocalNames.add, h]

/-- Ask for one location after the other; each is listed with the name that it was given. -/
def ask (names : LocalNames) (requests : List RelativeImport) :
    LocalNames × List (RelativeImport × String) :=
  requests.foldl (fun state i => ((state.1.add i).1, state.2 ++ [(i, (state.1.add i).2)])) (names, [])

theorem ask_concat (names : LocalNames) (requests : List RelativeImport) (i : RelativeImport) :
    names.ask (requests ++ [i]) = (((names.ask requests).1.add i).1,
      (names.ask requests).2 ++ [(i, ((names.ask requests).1.add i).2)]) := by
  simp [ask]

/-- The keys of the locations that were asked for. -/
def askedKeys (answers : List (RelativeImport × String)) : List (String × String) :=
  answers.map fun a => a.1.key

/-- What a table has answered, and what it holds for that: every location keeps the name that it
was given, the used names are those that were reserved or given, and a location that was asked for
the first time was given what fits among the names that were used by then. -/
structure Answered (reserved : List String) (answers : List (RelativeImport × String))
    (names : LocalNames) : Prop where
  separate : names.Separate reserved
  kept : ∀ a ∈ answers, names.assigned.lookup a.1.key = some a.2
  keys : ∀ key, key ∈ Entries.keys names.assigned ↔ key ∈ askedKeys answers
  nodup : (Entries.keys names.assigned).Nodup
  used : ∀ name, name ∈ names.used ↔ name ∈ reserved ++ answers.map Prod.snd
  first : ∀ before i name after, answers = before ++ (i, name) :: after →
    i.key ∉ askedKeys before → Fits (reserved ++ before.map Prod.snd) i.name name

theorem answered_reserving (reserved : List String) : Answered reserved [] (reserving reserved) where
  separate := separate_reserving reserved
  kept _ ha := absurd ha List.not_mem_nil
  keys _ := Iff.rfl
  nodup := .nil
  used name := by simp [reserving]
  first before i name after h := absurd h (by simp)

/-- **One more request.** -/
theorem Answered.add (h : Answered reserved answers names) (i : RelativeImport) :
    Answered reserved (answers ++ [(i, (names.add i).2)]) (names.add i).1 := by
  refine ⟨h.separate.add i, ?_, ?_, nodup_keys_add h.nodup i, ?_, ?_⟩
  · intro a ha
    rcases List.mem_append.1 ha with ha | ha
    · exact extends_add names i _ _ (h.kept a ha)
    · rw [List.mem_singleton.1 ha]
      exact lookup_add names i
  · intro key
    rw [mem_keys_add, h.keys]
    simp [askedKeys, or_comm]
  · intro name
    rw [h.separate.mem_used_add, h.used]
    simp only [List.map_append, List.map_cons, List.map_nil, List.mem_append, List.mem_singleton]
    grind
  · intro before i' name after hsplit hnew
    rcases concat_eq_append_cons_iff.1 hsplit with ⟨rfl, he, _⟩ | ⟨rest, _, hearlier⟩
    · obtain ⟨rfl, rfl⟩ := Prod.mk.inj he
      have hnone := Entries.lookup_eq_none (mt (h.keys i'.key).1 hnew)
      rw [add_of_lookup_eq_none hnone]
      exact (fits_freeName i'.name names.used).congr h.used
    · exact h.first before i' name rest hearlier hnew

/-- **Any number of requests.** -/
theorem answered_ask (reserved : List String) (requests : List RelativeImport) :
    Answered reserved ((reserving reserved).ask requests).2 ((reserving reserved).ask requests).1 ∧
      ((reserving reserved).ask requests).2.map Prod.fst = requests := by
  induction requests using List.reverseRecOn with
  | nil => exact ⟨answered_reserving reserved, rfl⟩
  | append_singleton requests i ih =>
    obtain ⟨hanswered, hrequests⟩ := ih
    rw [ask_concat]
    exact ⟨hanswered.add i, by simp [hrequests]⟩

/-- Locations were given one name if and only if they are one. -/
theorem Answered.name_eq_iff (h : Answered reserved answers names) {a b : RelativeImport × String}
    (ha : a ∈ answers) (hb : b ∈ answers) : a.2 = b.2 ↔ a.1.key = b.1.key := by
  have hlookup := h.kept a ha
  have hlookup' := h.kept b hb
  constructor
  · intro he
    exact h.separate.injective _ _ _ hlookup (he ▸ hlookup')
  · intro he
    rw [he, hlookup'] at hlookup
    exact (Option.some.inj hlookup).symm

/-- A table has as many names as there are different locations among the requests. -/
theorem Answered.size_eq (h : Answered reserved answers names) :
    names.size = (askedKeys answers).dedup.length := by
  have hperm : (Entries.keys names.assigned).Perm (askedKeys answers).dedup :=
    (List.perm_ext_iff_of_nodup h.nodup (List.nodup_dedup _)).2 fun key => by
      rw [h.keys, List.mem_dedup]
  rw [← hperm.length_eq, Entries.keys, List.length_map, size]

end LocalNames

open LocalNames

/-- **Local names.** Let any names be reserved, and let any locations be asked for, one after the
other. Each request is answered. Two answers are one name if and only if their locations are one,
and no answer is a reserved name. A location that is asked for the first time is given the name
that it is imported under, if that is neither reserved nor was given before; if it is, the search
for a number from 2 on ends, and the location is given this name with the least number behind it
that makes it free. There are as many local names as different locations. -/
theorem names_given (reserved : List String) (requests : List RelativeImport) :
    let names := ((reserving reserved).ask requests).1
    let answers := ((reserving reserved).ask requests).2
    answers.map Prod.fst = requests ∧
      (∀ a ∈ answers, ∀ b ∈ answers, a.2 = b.2 ↔ a.1.key = b.1.key) ∧
      (∀ a ∈ answers, a.2 ∉ reserved) ∧
      (∀ before i name after, answers = before ++ (i, name) :: after →
        i.key ∉ askedKeys before → Fits (reserved ++ before.map Prod.snd) i.name name) ∧
      names.size = (requests.map RelativeImport.key).dedup.length := by
  intro names answers
  obtain ⟨hanswered, hrequests⟩ := answered_ask reserved requests
  refine ⟨hrequests, fun a ha b hb => hanswered.name_eq_iff ha hb, fun a ha => ?_,
    hanswered.first, ?_⟩
  · exact hanswered.separate.not_reserved _ _ (hanswered.kept a ha)
  · have hkeys : askedKeys answers = requests.map RelativeImport.key := by
      rw [← hrequests, List.map_map]
      rfl
    rw [hanswered.size_eq, hkeys]

/-- Two namespaces `d` and one that is called `d2` itself, the first asked for again, and a model
that is called like a reserved one. -/
theorem names_given_around_suffix :
    let here (source name : String) : RelativeImport := ⟨source, name, false⟩
    let requests := [here "." "d", here "..x" "d", here "." "d2", here "." "d", here ".." "Pet"]
    let run := (reserving ["Pet"]).ask requests
    run.2.map Prod.snd = ["d", "d2", "d22", "d", "Pet2"] ∧ run.1.size = 4 ∧
      IsLeast {k : Nat | 2 ≤ k ∧ "d2" ++ toString k ∉ ["Pet", "d", "d2"]} 2 := by
  intro here requests run
  obtain ⟨_, _, _, hfirst, hsize⟩ := names_given ["Pet"] requests
  have hanswers : run.2 = [(here "." "d", "d"), (here "..x" "d", "d2"), (here "." "d2", "d22"),
      (here "." "d", "d"), (here ".." "Pet", "Pet2")] := by decide
  obtain ⟨n, _, hleast, hname⟩ := (hfirst [(here "." "d", "d"), (here "..x" "d", "d2")]
    (here "." "d2") "d22" [(here "." "d", "d"), (here ".." "Pet", "Pet2")] hanswers
    (by decide)).taken (by decide)
  have hsame : "d2" ++ toString n = "d2" ++ toString 2 := hname.symm.trans (by decide)
  obtain rfl : n = 2 := append_toString_inj hsame
  exact ⟨by rw [hanswers]; rfl, hsize.trans (by decide), hleast⟩

end Bindery
