import Bindery.Proofs.Json.Spelling
import Bindery.Proofs.Text.Codes

/-! Which values have one canonical text.

The canonical text of a value is the value with its members in the order of their keys, spelled
out (`canonicalChars?_eq`). Putting members in order only ever moves members of different keys past
each other, and a spelling tells what it spells, so two values have one canonical text exactly if
they are alike up to the order of members and the canonical text of numbers
(`canonical?_eq_iff`). -/
namespace Bindery.Json

/-- Alike up to the order of members and the canonical text of numbers. -/
abbrev CanonicallyAlike : Json → Json → Prop :=
  Alike (fun n n' => n.canonical? = n'.canonical?) True

/-! ### Members in order -/

/-- Whether a member may come before another by its key. -/
def keyBefore {α : Type} (a b : String × α) : Bool := (compare (units16 a.1) (units16 b.1)).isLE

theorem keyBefore_total {α : Type} (a b : String × α) :
    keyBefore a b = true ∨ keyBefore b a = true := by
  have hswap : compare (units16 b.1) (units16 a.1) =
      (compare (units16 a.1) (units16 b.1)).swap := Std.OrientedCmp.eq_swap
  unfold keyBefore
  rw [hswap]
  cases compare (units16 a.1) (units16 b.1) <;> simp

theorem keyBefore_trans {α : Type} (a b c : String × α) (hab : keyBefore a b = true)
    (hbc : keyBefore b c = true) : keyBefore a c = true :=
  Std.TransCmp.isLE_trans hab hbc

/-- Members that may come before each other have one key. -/
theorem key_eq_of_keyBefore {α : Type} {a b : String × α} (hab : keyBefore a b = true)
    (hba : keyBefore b a = true) : a.1 = b.1 :=
  units16_injective (Std.LawfulEqCmp.eq_of_compare (Std.OrientedCmp.isLE_antisymm hab hba))

mutual

/-- A value with all members in the order of their keys. -/
def sorted : Json → Json
  | .null => .null
  | .bool b => .bool b
  | .number n => .number n
  | .string s => .string s
  | .array items => .array (sortedItems items)
  | .object members => .object (stableSort keyBefore (sortedMembers members))

def sortedItems : List Json → List Json
  | [] => []
  | item :: rest => sorted item :: sortedItems rest

def sortedMembers : List (String × Json) → List (String × Json)
  | [] => []
  | (key, value) :: rest => (key, sorted value) :: sortedMembers rest

end

section Alike
variable {same : Number → Number → Prop}

theorem alike_insertInOrder (front rest : List (String × Json)) (a : String × Json) :
    Alike same True (.object (front ++ a :: rest))
      (.object (front ++ insertInOrder keyBefore a rest)) := by
  induction rest generalizing front with
  | nil => exact .refl _
  | cons b rest ih =>
    rw [insertInOrder]
    by_cases hab : keyBefore a b = true
    · rw [if_pos hab]
      exact .refl _
    · rw [if_neg hab]
      have hne : a.1 ≠ b.1 := by
        intro hkey
        refine hab ?_
        simp [keyBefore, hkey]
      have hrest := ih (front ++ [b])
      rw [List.append_assoc, List.append_assoc] at hrest
      exact (Alike.swap trivial hne).trans hrest

theorem alike_stableSort (front members : List (String × Json)) :
    Alike same True (.object (front ++ members))
      (.object (front ++ stableSort keyBefore members)) := by
  induction members generalizing front with
  | nil => exact .refl _
  | cons a rest ih =>
    have hrest := ih (front ++ [a])
    rw [List.append_assoc, List.append_assoc] at hrest
    exact hrest.trans (alike_insertInOrder _ _ a)

mutual

/-- Sorting members leaves a value alike. -/
theorem alike_sorted : ∀ v : Json, Alike same True v (sorted v)
  | .null => .refl _
  | .bool _ => .refl _
  | .number _ => .refl _
  | .string _ => .refl _
  | .array items => .array (alike_sortedItems items)
  | .object members =>
    (Alike.object (alike_sortedMembers members)).trans (alike_stableSort [] _)

theorem alike_sortedItems : ∀ items : List Json,
    List.Forall₂ (Alike same True) items (sortedItems items)
  | [] => .nil
  | item :: rest => .cons (alike_sorted item) (alike_sortedItems rest)

theorem alike_sortedMembers : ∀ members : List (String × Json),
    List.Forall₂ (MemberAlike same True) members (sortedMembers members)
  | [] => .nil
  | (_, value) :: rest => .cons ⟨rfl, alike_sorted value⟩ (alike_sortedMembers rest)

end

end Alike

/-! ### The canonical spelling -/

/-- What stands for a number without canonical text; no number is written so. -/
def noNumber : String := "none"

def canonicalNumber (n : Number) : List Char := (n.canonical?.getD noNumber).toList

theorem canonicalNumber_ne {n : Number} {word : List Char} (hnone : noNumber.toList ≠ word)
    (hword : word.all isNumeric = false) : canonicalNumber n ≠ word := by
  unfold canonicalNumber
  cases h : n.canonical? with
  | none => exact hnone
  | some text => exact (Number.numeric_canonical? h).toList_ne hword

theorem canonicalNumber_injective {n n' : Number} (h : canonicalNumber n = canonicalNumber n') :
    n.canonical? = n'.canonical? := by
  have hnone : noNumber.toList.all isNumeric = false := by decide
  unfold canonicalNumber at h
  cases hn : n.canonical? with
  | none =>
    cases hn' : n'.canonical? with
    | none => rfl
    | some text' =>
      rw [hn, hn'] at h
      exact absurd h.symm ((Number.numeric_canonical? hn').toList_ne hnone)
  | some text =>
    cases hn' : n'.canonical? with
    | none =>
      rw [hn, hn'] at h
      exact absurd h ((Number.numeric_canonical? hn).toList_ne hnone)
    | some text' =>
      rw [hn, hn', Option.getD_some, Option.getD_some, String.toList_inj] at h
      rw [h]

def canonicalSpelling : Spelling where
  null := "null".toList
  bool b := if b then "true".toList else "false".toList
  number := canonicalNumber
  text := stringChars
  afterComma := []
  afterColon := []
  isWord_null := by decide
  isWord_bool := by decide
  isWord_number n := by
    unfold canonicalNumber
    cases h : n.canonical? with
    | none => decide
    | some text =>
      exact isWord_of_numeric (Number.numeric_canonical? h) (Number.canonical?_ne_nil h)
  bool_ne_null := by decide
  bool_injective := by decide
  number_ne_null _ := canonicalNumber_ne (by decide) (by decide)
  number_ne_bool _ b := by
    cases b
    · exact canonicalNumber_ne (by decide) (by decide)
    · exact canonicalNumber_ne (by decide) (by decide)
  opens_text s := ⟨'\x22', _, rfl, by decide⟩
  text_cancel := stringChars_cancel

theorem separated_eq_between (words : List (List Char)) :
    separated words = between canonicalSpelling.comma words := by
  induction words with
  | nil => rfl
  | cons word rest ih =>
    cases rest with
    | nil => simp [separated, between]
    | cons next rest =>
      rw [separated, ih, between, between, List.flatMap_cons]
      rfl

/-- Sorting texts of members is sorting members. -/
theorem sortByKey_map (f : Json → List Char) (members : List (String × Json)) :
    sortByKey (members.map fun m => (m.1, f m.2)) =
      (stableSort keyBefore members).map fun m => (m.1, f m.2) :=
  stableSort_map _ _ members

mutual

/-- The canonical text of a value is the sorted value spelled out. -/
theorem canonicalChars?_eq : ∀ {v : Json} {cs : List Char}, canonicalChars? v = some cs →
    cs = canonicalSpelling.spell (sorted v)
  | .null, cs, h => (Option.some.inj h).symm
  | .bool true, cs, h => (Option.some.inj h).symm
  | .bool false, cs, h => (Option.some.inj h).symm
  | .number n, cs, h => by
    obtain ⟨text, htext, rfl⟩ := Option.map_eq_some_iff.1 h
    show text.toList = (n.canonical?.getD noNumber).toList
    rw [htext, Option.getD_some]
  | .string s, cs, h => (Option.some.inj h).symm
  | .array items, cs, h => by
    obtain ⟨texts, htexts, hcs⟩ := Option.bind_eq_some_iff.1 h
    rw [← Option.some.inj hcs, canonicalItems?_eq htexts, separated_eq_between, sorted,
      Spelling.spell, Spelling.spellItems_eq_map]
  | .object members, cs, h => by
    obtain ⟨texts, htexts, hcs⟩ := Option.bind_eq_some_iff.1 h
    rw [← Option.some.inj hcs, canonicalMembers?_eq htexts, separated_eq_between, sorted,
      Spelling.spell, Spelling.spellMembers_eq_map, sortByKey_map, List.map_map]
    simp only [Function.comp_def, List.append_assoc]
    rfl

theorem canonicalItems?_eq : ∀ {items : List Json} {texts : List (List Char)},
    canonicalItems? items = some texts → texts = (sortedItems items).map canonicalSpelling.spell
  | [], texts, h => (Option.some.inj h).symm
  | item :: rest, texts, h => by
    obtain ⟨first, hfirst, h⟩ := Option.bind_eq_some_iff.1 h
    obtain ⟨others, hothers, h⟩ := Option.bind_eq_some_iff.1 h
    rw [← Option.some.inj h, canonicalChars?_eq hfirst, canonicalItems?_eq hothers]
    rfl

theorem canonicalMembers?_eq : ∀ {members : List (String × Json)}
    {texts : List (String × List Char)}, canonicalMembers? members = some texts →
    texts = (sortedMembers members).map fun m => (m.1, canonicalSpelling.spell m.2)
  | [], texts, h => (Option.some.inj h).symm
  | (key, value) :: rest, texts, h => by
    obtain ⟨first, hfirst, h⟩ := Option.bind_eq_some_iff.1 h
    obtain ⟨others, hothers, h⟩ := Option.bind_eq_some_iff.1 h
    rw [← Option.some.inj h, canonicalChars?_eq hfirst, canonicalMembers?_eq hothers]
    rfl

end

/-! ### Alike values -/

theorem canonicalItems?_eq_mapM (items : List Json) :
    canonicalItems? items = items.mapM canonicalChars? := by
  induction items with
  | nil => rfl
  | cons item rest ih => rw [canonicalItems?, List.mapM_cons, ih]

def canonicalMember? (m : String × Json) : Option (String × List Char) :=
  (canonicalChars? m.2).map fun cs => (m.1, cs)

theorem canonicalMembers?_eq_mapM (members : List (String × Json)) :
    canonicalMembers? members = members.mapM canonicalMember? := by
  induction members with
  | nil => rfl
  | cons member rest ih =>
    obtain ⟨key, v⟩ := member
    rw [canonicalMembers?, List.mapM_cons, ih, canonicalMember?]
    cases canonicalChars? v <;> rfl

theorem canonicalChars?_object {members members' : List (String × Json)}
    (h : (canonicalMembers? members).map sortByKey = (canonicalMembers? members').map sortByKey) :
    canonicalChars? (.object members) = canonicalChars? (.object members') := by
  rw [canonicalChars?, canonicalChars?]
  cases hm : canonicalMembers? members with
  | none =>
    cases hm' : canonicalMembers? members' with
    | none => rfl
    | some texts' => simp [hm, hm'] at h
  | some texts =>
    cases hm' : canonicalMembers? members' with
    | none => simp [hm, hm'] at h
    | some texts' =>
      rw [hm, hm', Option.map_some, Option.map_some, Option.some.injEq] at h
      simp only [Option.bind_eq_bind, Option.bind_some, h]

theorem sortByKey_swap {front back : List (String × List Char)} {a b : String × List Char}
    (hne : a.1 ≠ b.1) :
    sortByKey (front ++ a :: b :: back) = sortByKey (front ++ b :: a :: back) :=
  stableSort_swap keyBefore_total keyBefore_trans fun h => hne (key_eq_of_keyBefore h.1 h.2)

/-- Alike values have one canonical text. -/
theorem canonicalChars?_eq_of_alike {v w : Json} (h : CanonicallyAlike v w) :
    canonicalChars? v = canonicalChars? w := by
  induction h with
  | refl v => rfl
  | symm _ ih => exact ih.symm
  | trans _ _ ih ih' => exact ih.trans ih'
  | number h => rw [canonicalChars?, canonicalChars?, h]
  | item _ ih =>
    rw [canonicalChars?, canonicalChars?]
    simp only [canonicalItems?_eq_mapM, List.mapM_append, List.mapM_cons, ih]
  | member _ ih =>
    refine canonicalChars?_object ?_
    simp only [canonicalMembers?_eq_mapM, List.mapM_append, List.mapM_cons, canonicalMember?, ih]
  | @swap front back key key' v w _ hne =>
    refine canonicalChars?_object ?_
    simp only [canonicalMembers?_eq_mapM, List.mapM_append, List.mapM_cons, canonicalMember?]
    -- if any part has no canonical text, neither object has one
    cases front.mapM canonicalMember? with
    | none => rfl
    | some front =>
      cases canonicalChars? v with
      | none => cases canonicalChars? w <;> rfl
      | some cs =>
        cases canonicalChars? w with
        | none => rfl
        | some cs' =>
          cases back.mapM canonicalMember? with
          | none => rfl
          | some back => exact congrArg some (sortByKey_swap hne)

/-- **Two values have one canonical text if and only if they are alike** up to the order of
members and the canonical text of numbers. -/
theorem canonical?_eq_iff {v w : Json} {text text' : String} (hv : v.canonical? = some text)
    (hw : w.canonical? = some text') : text = text' ↔ CanonicallyAlike v w := by
  obtain ⟨cs, hcs, rfl⟩ := Option.map_eq_some_iff.1 hv
  obtain ⟨cs', hcs', rfl⟩ := Option.map_eq_some_iff.1 hw
  constructor
  · intro h
    rw [String.ofList_inj] at h
    rw [canonicalChars?_eq hcs, canonicalChars?_eq hcs', Spelling.spell_eq_iff] at h
    -- one spelling, so alike in order; and each value is alike to itself in order
    have hmiddle : CanonicallyAlike (sorted v) (sorted w) :=
      h.mono (fun _ _ => canonicalNumber_injective) False.elim
    exact (alike_sorted v).trans (hmiddle.trans (alike_sorted w).symm)
  · intro h
    rw [canonicalChars?_eq_of_alike h, hcs'] at hcs
    rw [Option.some.inj hcs]

end Bindery.Json
