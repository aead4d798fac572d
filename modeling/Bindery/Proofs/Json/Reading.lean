import Bindery.Proofs.Json.Keys
import Bindery.Proofs.Json.Numerals
import Bindery.Proofs.Json.Spelling
import Bindery.Proofs.Text.Codes

/-! Written values are read back.

A reader gets the outline of a text, so what it makes of the compact text of a value is what it
makes of the outline of the value (`read_compact`). Strings are read back whatever they hold, and
numbers as far as the text of a number is read as the number (`Number.ReadsBack`): each part of a
numeral ends where something follows that is no part of it, so a numeral is read in front of other
text as it is read alone (`Numeral.read?_append`). -/
namespace Bindery.Json

/-! ### Strings -/

/-- A control character that was written as a code unit is no half of a surrogate pair. -/
theorem joinPieces?_control {c : Char} (h : c.toNat < 0x20) (rest : List Piece) :
    joinPieces? (.unit c.toNat :: rest) = (joinPieces? rest).map (c :: ·) := by
  have hhigh : isHighHalf c.toNat = false := by
    simp only [isHighHalf, Bool.and_eq_false_imp, decide_eq_true_eq, decide_eq_false_iff_not]
    omega
  have hlow : isLowHalf c.toNat = false := by
    simp only [isLowHalf, Bool.and_eq_false_imp, decide_eq_true_eq, decide_eq_false_iff_not]
    omega
  cases rest with
  | nil => simp [joinPieces?, hhigh, hlow]
  | cons p rest =>
    cases p with
    | char d => simp [joinPieces?, hhigh, hlow, Option.map_eq_bind, Function.comp_def]
    | unit code => simp [joinPieces?, hhigh, hlow, Option.map_eq_bind, Function.comp_def]

/-- The pieces of a string that was written are its characters. -/
theorem joinPieces?_map_piece (cs : List Char) : joinPieces? (cs.map piece) = some cs := by
  induction cs with
  | nil => rfl
  | cons c cs ih =>
    rw [List.map_cons, piece]
    split
    · next h => rw [joinPieces?_control h.1, ih, Option.map_some]
    · rw [joinPieces?, ih]
      rfl

/-! ### Numerals in front of other text -/

theorem Stops.not_word {cs : List Char} (h : Stops cs) {c : Char} (hc : isWordChar c = true) :
    cs.head? ≠ some c := by
  intro hhead
  rw [h c hhead] at hc
  cases hc

theorem Stops.endsDigits {cs : List Char} (h : Stops cs) : EndsDigits cs := by
  intro c hc
  have hword := h c hc
  rw [isWordChar, isNumeric, ← isDigit_eq] at hword
  simp only [Bool.or_eq_false_iff] at hword
  exact hword.2.1.1.1.1

namespace Numeral
variable {cs rest more : List Char}

theorem readDigits_append_rest (hrest : Stops rest) (cs : List Char) :
    readDigits (cs ++ rest) = ((readDigits cs).1, (readDigits cs).2 ++ rest) := by
  induction cs with
  | nil => exact readDigits_append nofun hrest.endsDigits
  | cons c cs ih =>
    obtain ⟨hdigits, hmore⟩ := Prod.mk.inj ih
    by_cases hc : isDigit c = true
    · simp only [readDigits, List.cons_append, List.takeWhile_cons_of_pos hc,
        List.dropWhile_cons_of_pos hc, List.map_cons] at hdigits hmore ⊢
      rw [hdigits, hmore]
    · simp only [readDigits, List.cons_append, List.takeWhile_cons_of_neg hc,
        List.dropWhile_cons_of_neg hc]

theorem readFraction?_append {ds : List Nat} (hrest : Stops rest)
    (h : readFraction? cs = some (ds, more)) :
    readFraction? (cs ++ rest) = some (ds, more ++ rest) := by
  rw [readFraction?.eq_def] at h
  split at h
  · next behind =>
    rw [List.cons_append, readFraction?, readDigits_append_rest hrest]
    split at h
    · cases h
    · next digits after hne hread =>
      obtain ⟨rfl, rfl⟩ := Prod.mk.inj (Option.some.inj h)
      rw [hread]
      split
      · next hnone => exact absurd (Prod.mk.inj hnone).1 hne
      · next hsome =>
        obtain ⟨rfl, rfl⟩ := Prod.mk.inj hsome
        rfl
  · next hpoint =>
    obtain ⟨rfl, rfl⟩ := Prod.mk.inj (Option.some.inj h)
    apply readFraction?_none
    cases cs with
    | nil => exact hrest.not_word (by decide)
    | cons c cs =>
      intro hhead
      exact hpoint cs (by rw [Option.some.inj hhead])

theorem readExponentDigits?_append {negative : Bool} {e : Option (Bool × List Nat)}
    (hrest : Stops rest) (h : readExponentDigits? negative cs = some (e, more)) :
    readExponentDigits? negative (cs ++ rest) = some (e, more ++ rest) := by
  rw [readExponentDigits?, readDigits_append_rest hrest]
  rw [readExponentDigits?] at h
  split at h
  · cases h
  · next digits after hne hread =>
    obtain ⟨rfl, rfl⟩ := Prod.mk.inj (Option.some.inj h)
    rw [hread]
    split
    · next hnone => exact absurd (Prod.mk.inj hnone).1 hne
    · next hsome =>
      obtain ⟨rfl, rfl⟩ := Prod.mk.inj hsome
      rfl

theorem readExponent?_append {e : Option (Bool × List Nat)} (hrest : Stops rest)
    (h : readExponent? cs = some (e, more)) :
    readExponent? (cs ++ rest) = some (e, more ++ rest) := by
  have hnone : readExponent? rest = some (none, rest) := by
    cases rest with
    | nil => rfl
    | cons c rest =>
      have hc : ¬ (c = 'e' ∨ c = 'E') := by
        rintro (rfl | rfl)
        · exact hrest.not_word (by decide) rfl
        · exact hrest.not_word (by decide) rfl
      rw [readExponent?.eq_def]
      exact if_neg hc
  cases cs with
  | nil =>
    obtain ⟨rfl, rfl⟩ := Prod.mk.inj (Option.some.inj h)
    exact hnone
  | cons c cs =>
    rw [readExponent?.eq_def] at h ⊢
    dsimp only [List.cons_append] at h ⊢
    split at h
    · next hc =>
      rw [if_pos hc]
      split at h
      · exact readExponentDigits?_append hrest h
      · exact readExponentDigits?_append hrest h
      · next hplus hminus =>
        -- An exponent has a digit, so a sign that follows the text is not taken for its own.
        cases cs with
        | nil => cases h
        | cons d cs =>
          rw [List.cons_append]
          split
          · next heq => exact (hplus cs (by rw [(List.cons.inj heq).1])).elim
          · next heq => exact (hminus cs (by rw [(List.cons.inj heq).1])).elim
          · exact readExponentDigits?_append hrest h
    · next hc =>
      obtain ⟨rfl, rfl⟩ := Prod.mk.inj (Option.some.inj h)
      rw [if_neg hc]
      rfl

theorem readUnsigned?_append {negative : Bool} {l : Numeral} (hrest : Stops rest)
    (h : readUnsigned? negative cs = some (l, more)) :
    readUnsigned? negative (cs ++ rest) = some (l, more ++ rest) := by
  rw [readUnsigned?] at h
  rw [readUnsigned?, readDigits_append_rest hrest]
  split at h
  · cases h
  · cases h
  · next whole after hne hzero hread =>
    rw [hread]
    split
    · next hnone => exact absurd (Prod.mk.inj hnone).1 hne
    · next heq => exact absurd (Prod.mk.inj heq).1 (hzero _ _)
    · next heq =>
      obtain ⟨rfl, rfl⟩ := Prod.mk.inj heq
      obtain ⟨⟨fraction, behind⟩, hfraction, h⟩ := Option.bind_eq_some_iff.1 h
      obtain ⟨⟨exponent, behind'⟩, hexponent, h⟩ := Option.bind_eq_some_iff.1 h
      obtain ⟨rfl, rfl⟩ := Prod.mk.inj (Option.some.inj h)
      simp only [readFraction?_append hrest hfraction, readExponent?_append hrest hexponent,
        Option.bind_eq_bind, Option.bind_some]
      rfl

/-- A numeral is read in front of other text as it is read alone. -/
theorem read?_append {l : Numeral} (hrest : Stops rest) (h : read? cs = some (l, more)) :
    read? (cs ++ rest) = some (l, more ++ rest) := by
  rw [read?.eq_def] at h
  split at h
  · exact readUnsigned?_append hrest h
  · next hminus =>
    cases cs with
    | nil => cases h
    | cons c cs =>
      rw [List.cons_append, read?.eq_def]
      split
      · next heq => exact (hminus cs (by rw [(List.cons.inj heq).1])).elim
      · exact readUnsigned?_append hrest h

end Numeral

/-! ### Numbers -/

/-- Reading the text of the number gives the number. -/
def Number.ReadsBack (n : Number) : Prop := parse n.text = .ok (.number n)

mutual

def numbers : Json → List Number
  | .number n => [n]
  | .array items => itemNumbers items
  | .object members => memberNumbers members
  | _ => []

def itemNumbers : List Json → List Number
  | [] => []
  | item :: rest => numbers item ++ itemNumbers rest

def memberNumbers : List (String × Json) → List Number
  | [] => []
  | (_, v) :: rest => numbers v ++ memberNumbers rest

end

section Values
variable {fuel : Nat} {rest : List Char}

theorem skip_cons {c : Char} {cs : List Char} (h : isBlank c = false) :
    skip (c :: cs) = c :: cs :=
  List.dropWhile_cons_of_neg (by rw [h]; exact Bool.false_ne_true)

theorem ne_of_numeric {c d : Char} (hc : isNumeric c = true) (hd : isNumeric d = false) :
    c ≠ d := by
  rintro rfl
  rw [hd] at hc
  cases hc

theorem not_blank_of_numeric {c : Char} (hc : isNumeric c = true) : isBlank c = false := by
  have hne : c ≠ ' ' ∧ c ≠ '\t' ∧ c ≠ '\n' ∧ c ≠ '\r' :=
    ⟨ne_of_numeric hc (by decide), ne_of_numeric hc (by decide), ne_of_numeric hc (by decide),
      ne_of_numeric hc (by decide)⟩
  simp [isBlank, hne]

theorem readValue_numeral {c : Char} {cs : List Char} {l : Numeral} (hc : isNumeric c = true)
    (h : Numeral.read? (c :: cs) = some (l, rest)) :
    readValue (fuel + 1) (c :: cs) = (.number l.value?, some rest) := by
  rw [readValue, skip_cons (not_blank_of_numeric hc)]
  split
  case h_7 => rw [h]
  -- every other kind of value begins with a character that no number has
  all_goals next heq => exact absurd (List.cons.inj heq).1 (ne_of_numeric hc (by decide))

theorem readValue_text {n : Number} {l : Numeral}
    (hl : Numeral.read? n.text.toList = some (l, [])) (hrest : Stops rest) :
    readValue (fuel + 1) (n.text.toList ++ rest) = (.number l.value?, some rest) := by
  have happend := Numeral.read?_append hrest hl
  obtain ⟨c, cs, hcs⟩ := List.exists_cons_of_ne_nil n.text_ne_nil
  have hc : isNumeric c = true :=
    numeric_iff.1 n.numeric_text c (by rw [hcs]; exact List.mem_cons_self)
  rw [hcs, List.cons_append] at happend ⊢
  exact readValue_numeral hc happend

theorem Number.readsBack_iff {n : Number} {l : Numeral}
    (hl : Numeral.read? n.text.toList = some (l, [])) : n.ReadsBack ↔ l.value? = some n := by
  have hread : readValue (2 * n.text.toList.length + 2) (n.text.toList ++ []) =
      (.number l.value?, some []) := readValue_text hl nofun
  rw [List.append_nil] at hread
  simp only [ReadsBack, parse, read, Outline.ofText, hread]
  cases l.value? with
  | none => exact ⟨nofun, nofun⟩
  | some m =>
    constructor
    · intro h
      cases h
      rfl
    · intro h
      cases h
      rfl

instance (n : Number) : Decidable n.ReadsBack :=
  decidable_of_iff ((Numeral.read? n.text.toList).bind (fun p => p.1.value?) = some n) <| by
    obtain ⟨l, hl⟩ := n.isNumeral_text
    rw [hl, Option.bind_some, Number.readsBack_iff hl]

theorem readValue_number {n : Number} (hn : n.ReadsBack) (hrest : Stops rest) :
    readValue (fuel + 1) (n.text.toList ++ rest) = (.number (some n), some rest) := by
  obtain ⟨l, hl⟩ := n.isNumeral_text
  rw [readValue_text hl hrest, (Number.readsBack_iff hl).1 hn]

end Values

/-! ### Values -/

section Parts
variable {fuel : Nat} {c : Char} {cs rest : List Char}

theorem readPieces?_string (s : String) (rest : List Char) :
    ∃ pieces, readPieces? (s.toList.flatMap escape ++ '\x22' :: rest) = some (pieces, rest) ∧
      (joinPieces? pieces).map String.ofList = some s := by
  refine ⟨_, readPieces?_flatMap_escape s.toList rest, ?_⟩
  rw [joinPieces?_map_piece, Option.map_some, String.ofList_toList]

theorem stringChars_append (s : String) (rest : List Char) :
    stringChars s ++ rest = '\x22' :: (s.toList.flatMap escape ++ '\x22' :: rest) := by
  simp [stringChars]

theorem readValue_string (s : String) (rest : List Char) :
    readValue (fuel + 1) (stringChars s ++ rest) = (.string (some s), some rest) := by
  obtain ⟨pieces, hpieces, hjoin⟩ := readPieces?_string s rest
  rw [stringChars_append, readValue, skip_cons (by decide)]
  simp only [hpieces, hjoin]

theorem readValue_array {items : List Outline} {after : Option (List Char)}
    (hblank : isBlank c = false) (hne : c ≠ ']') (h : readItems fuel (c :: cs) = (items, after)) :
    readValue (fuel + 1) ('[' :: c :: cs) = (.array items after.isSome, after) := by
  rw [readValue, skip_cons (by decide)]
  simp only [skip_cons hblank]
  split
  · next heq => exact absurd (List.cons.inj heq).1 hne
  · rw [h]

theorem readValue_object {members : List (Option String × Outline)} {after : Option (List Char)}
    (h : readMembers fuel ('\x22' :: cs) = (members, after)) :
    readValue (fuel + 1) ('\x7b' :: '\x22' :: cs) = (.object members after.isSome, after) := by
  show (Outline.object (readMembers fuel ('\x22' :: cs)).1
    (readMembers fuel ('\x22' :: cs)).2.isSome, (readMembers fuel ('\x22' :: cs)).2) = _
  rw [h]

/-- A member is read like a value in front of a comma or a brace. -/
theorem readMembers_member {value : Outline} (key : String)
    (h : readValue fuel cs = (value, some rest)) :
    readMembers (fuel + 1) (stringChars key ++ ':' :: cs) =
      match skip rest with
      | ',' :: rest => ((some key, value) :: (readMembers fuel rest).1, (readMembers fuel rest).2)
      | '\x7d' :: rest => ([(some key, value)], some rest)
      | _ => ([(some key, value)], none) := by
  obtain ⟨pieces, hpieces, hjoin⟩ := readPieces?_string key (':' :: cs)
  rw [stringChars_append, readMembers, skip_cons (by decide)]
  simp only [hpieces, hjoin, skip_cons (show isBlank ':' = false by decide)]
  rewrite [h]
  rfl

end Parts

theorem chars_head (v : Json) : ∃ c cs, chars v = c :: cs ∧ isBlank c = false ∧ c ≠ ']' := by
  cases v with
  | null => exact ⟨'n', _, rfl, by decide, by decide⟩
  | bool b => cases b <;> exact ⟨_, _, rfl, by decide, by decide⟩
  | number n =>
    obtain ⟨c, cs, hcs⟩ := List.exists_cons_of_ne_nil n.text_ne_nil
    have hc : isNumeric c = true :=
      numeric_iff.1 n.numeric_text c (by rw [hcs]; exact List.mem_cons_self)
    exact ⟨c, cs, hcs, not_blank_of_numeric hc, ne_of_numeric hc (by decide)⟩
  | string s => exact ⟨'\x22', _, rfl, by decide, by decide⟩
  | array items => exact ⟨'[', _, by rw [chars], by decide, by decide⟩
  | object members => exact ⟨'\x7b', _, by rw [chars], by decide, by decide⟩

theorem itemChars_head (item : Json) (items : List Json) :
    ∃ c cs, itemChars (item :: items) = c :: cs ∧ isBlank c = false ∧ c ≠ ']' := by
  obtain ⟨c, cs, hcs, h⟩ := chars_head item
  cases items with
  | nil => exact ⟨c, cs, by rw [itemChars, hcs], h⟩
  | cons next items => exact ⟨c, _, by rw [itemChars, hcs, List.cons_append], h⟩

theorem memberChars_head (key : String) (v : Json) (members : List (String × Json)) :
    ∃ cs, memberChars ((key, v) :: members) = '\x22' :: cs := by
  cases members with
  | nil => exact ⟨_, by rw [memberChars, stringChars_append]⟩
  | cons next members => exact ⟨_, by rw [memberChars, stringChars_append]⟩

theorem length_chars_pos (v : Json) : 0 < (chars v).length := by
  obtain ⟨c, cs, hcs, _⟩ := chars_head v
  rw [hcs]
  exact Nat.succ_pos _

mutual

/-- A value that was written is read as its outline, up to what follows it. -/
theorem readValue_chars : ∀ (v : Json) (fuel : Nat) (rest : List Char),
    (∀ n ∈ v.numbers, n.ReadsBack) → Stops rest → 2 * (chars v).length ≤ fuel →
    readValue fuel (chars v ++ rest) = (.ofJson v, some rest)
  | .null, fuel + 1, _, _, _, _ => rfl
  | .bool true, fuel + 1, _, _, _, _ => rfl
  | .bool false, fuel + 1, _, _, _, _ => rfl
  | .number n, fuel + 1, _, hnumbers, hrest, _ =>
    readValue_number (hnumbers n List.mem_cons_self) hrest
  | .string s, fuel + 1, rest, _, _, _ => readValue_string s rest
  | .array [], fuel + 1, _, _, _, _ => rfl
  | .array (item :: items), fuel + 1, rest, hnumbers, _, hfuel => by
    obtain ⟨c, cs, hcs, hblank, hne⟩ := itemChars_head item items
    have hlength : (chars (.array (item :: items))).length =
        (itemChars (item :: items)).length + 2 := by
      simp [chars]
    have hitems := readItems_chars item items fuel rest hnumbers (by omega)
    rw [hcs, List.cons_append] at hitems
    rw [chars, hcs]
    simp only [List.cons_append, List.append_assoc]
    exact readValue_array hblank hne hitems
  | .object [], fuel + 1, _, _, _, _ => rfl
  | .object ((key, v) :: members), fuel + 1, rest, hnumbers, _, hfuel => by
    obtain ⟨cs, hcs⟩ := memberChars_head key v members
    have hlength : (chars (.object ((key, v) :: members))).length =
        (memberChars ((key, v) :: members)).length + 2 := by
      simp [chars]
    have hmembers := readMembers_chars key v members fuel rest hnumbers
      (by omega)
    rw [hcs, List.cons_append] at hmembers
    rw [chars, hcs]
    simp only [List.cons_append, List.append_assoc]
    exact readValue_object hmembers
  | v, 0, _, _, _, hfuel => by
    have hpos := length_chars_pos v
    omega

theorem readItems_chars : ∀ (item : Json) (items : List Json) (fuel : Nat) (rest : List Char),
    (∀ n ∈ itemNumbers (item :: items), n.ReadsBack) →
    2 * (itemChars (item :: items)).length < fuel →
    readItems fuel (itemChars (item :: items) ++ ']' :: rest) =
      (Outline.ofItems (item :: items), some rest)
  | item, [], fuel + 1, rest, hnumbers, hfuel => by
    rw [itemChars] at hfuel ⊢
    have hitem := readValue_chars item fuel (']' :: rest)
      (fun n hn => hnumbers n (List.mem_append_left _ hn)) (stops_cons (by decide)) (by omega)
    rw [readItems, hitem]
    rfl
  | item, next :: items, fuel + 1, rest, hnumbers, hfuel => by
    rw [itemChars, List.length_append, List.length_cons] at hfuel
    rw [itemChars, List.append_assoc, List.cons_append]
    have hitem := readValue_chars item fuel
      (',' :: (itemChars (next :: items) ++ ']' :: rest))
      (fun n hn => hnumbers n (List.mem_append_left _ hn)) (stops_cons (by decide)) (by omega)
    have hpos := length_chars_pos item
    have hitems := readItems_chars next items fuel rest
      (fun n hn => hnumbers n (List.mem_append_right _ hn)) (by omega)
    rw [readItems, hitem]
    simp only [skip_cons (show isBlank ',' = false by decide), hitems]
    rfl

theorem readMembers_chars : ∀ (key : String) (v : Json) (members : List (String × Json))
    (fuel : Nat) (rest : List Char),
    (∀ n ∈ memberNumbers ((key, v) :: members), n.ReadsBack) →
    2 * (memberChars ((key, v) :: members)).length < fuel →
    readMembers fuel (memberChars ((key, v) :: members) ++ '\x7d' :: rest) =
      (Outline.ofMembers ((key, v) :: members), some rest)
  | key, v, [], fuel + 1, rest, hnumbers, hfuel => by
    rw [memberChars, List.length_append, List.length_cons] at hfuel
    have hv := readValue_chars v fuel ('\x7d' :: rest)
      (fun n hn => hnumbers n (List.mem_append_left _ hn)) (stops_cons (by decide)) (by omega)
    rw [memberChars, List.append_assoc, List.cons_append, readMembers_member key hv]
    rfl
  | key, v, (key', w) :: members, fuel + 1, rest, hnumbers, hfuel => by
    rw [memberChars, List.length_append, List.length_cons, List.length_append, List.length_cons]
      at hfuel
    have hv := readValue_chars v fuel
      (',' :: (memberChars ((key', w) :: members) ++ '\x7d' :: rest))
      (fun n hn => hnumbers n (List.mem_append_left _ hn)) (stops_cons (by decide)) (by omega)
    have hmembers := readMembers_chars key' w members fuel rest
      (fun n hn => hnumbers n (List.mem_append_right _ hn)) (by omega)
    rw [memberChars, List.append_assoc, List.cons_append, List.append_assoc, List.cons_append,
      readMembers_member key hv]
    simp only [skip_cons (show isBlank ',' = false by decide), hmembers]
    rfl

end

/-- **What was written is read as its outline.** Every reader makes of the compact text of a value
what it makes of the outline of the value, if the numbers in the value are read back. -/
theorem read_compact {α : Type} (reader : Outline → Except Fault α) {v : Json}
    (hnumbers : ∀ n ∈ v.numbers, n.ReadsBack) : read reader (compact v) = reader (.ofJson v) := by
  have hread := readValue_chars v (2 * (chars v).length + 2) [] hnumbers nofun
    (by omega)
  rw [List.append_nil] at hread
  simp only [read, Outline.ofText, compact, String.toList_ofList, hread]
  cases reader (.ofJson v) with
  | error fault => rfl
  | ok a => rfl

end Bindery.Json
