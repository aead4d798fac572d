import Bindery.Proofs.Json.Keys
import Bindery.Proofs.Json.Numerals
import Bindery.Proofs.Source.Constants
import Bindery.Proofs.Source.Rendering

/-! What literals evaluate to.

A literal that has no carriage return and no character zero in any of its texts evaluates to what
its value says (`literalValue?_literal`), and any other literal evaluates to nothing: texts are
written with an escape for the line feed only. What a value says is the value itself if its
objects name every key once, as all values do that are read (`keyed_of_parse`). -/
namespace Bindery

namespace Json

mutual

/-- The strings in a value, the keys among them. -/
def strings : Json → List String
  | .string s => [s]
  | .array items => itemStrings items
  | .object members => memberStrings members
  | _ => []

def itemStrings : List Json → List String
  | [] => []
  | item :: rest => strings item ++ itemStrings rest

def memberStrings : List (String × Json) → List String
  | [] => []
  | (key, v) :: rest => key :: (strings v ++ memberStrings rest)

end

end Json

namespace Source
open Json

/-! ### Values as constants -/

mutual

/-- A value as a constant. -/
def constantOf : Json → Constant
  | .null => .none
  | .bool b => .bool b
  | .number n => .number n.text
  | .string s => .text s
  | .array items => .list (constantsOf items)
  | .object members => .dict (entriesOf members)

def constantsOf : List Json → List Constant
  | [] => []
  | item :: rest => constantOf item :: constantsOf rest

def entriesOf : List (String × Json) → List (String × Constant)
  | [] => []
  | (key, v) :: rest => (key, constantOf v) :: entriesOf rest

end

mutual

/-- What a value says when it is spelled out: of two members with one key, the later one counts. -/
def said : Json → Constant
  | .null => .none
  | .bool b => .bool b
  | .number n => .number n.text
  | .string s => .text s
  | .array items => .list (saidItems items)
  | .object members => .dict (Entries.ofList (saidMembers members))

def saidItems : List Json → List Constant
  | [] => []
  | item :: rest => said item :: saidItems rest

def saidMembers : List (String × Json) → List (String × Constant)
  | [] => []
  | (key, v) :: rest => (key, said v) :: saidMembers rest

end

theorem keys_saidMembers (members : List (String × Json)) :
    Entries.keys (saidMembers members) = Entries.keys members := by
  induction members with
  | nil => rfl
  | cons member rest ih => exact congrArg (member.1 :: ·) ih

theorem keys_entriesOf (members : List (String × Json)) :
    Entries.keys (entriesOf members) = Entries.keys members := by
  induction members with
  | nil => rfl
  | cons member rest ih => exact congrArg (member.1 :: ·) ih

mutual

/-- A value says itself if and only if its objects name every key once. -/
theorem said_eq_iff : ∀ v : Json, said v = constantOf v ↔ v.Keyed
  | .null => iff_of_true rfl trivial
  | .bool _ => iff_of_true rfl trivial
  | .number _ => iff_of_true rfl trivial
  | .string _ => iff_of_true rfl trivial
  | .array items => by
    rw [said, constantOf, Constant.list.injEq, saidItems_eq_iff items]
    rfl
  | .object members => by
    have hkeys : (Entries.keys members).Nodup ↔
        Entries.ofList (saidMembers members) = saidMembers members := by
      rw [Entries.ofList_eq_self_iff, keys_saidMembers]
    rw [said, constantOf, Constant.dict.injEq]
    show _ ↔ (Entries.keys members).Nodup ∧ KeyedMembers members
    constructor
    · intro h
      have hnodup : (Entries.keys members).Nodup := by
        rw [← keys_entriesOf, ← h]
        exact Entries.nodup_keys_foldl_put _ List.nodup_nil
      rw [hkeys.1 hnodup, saidMembers_eq_iff members] at h
      exact ⟨hnodup, h⟩
    · intro ⟨hnodup, h⟩
      rw [hkeys.1 hnodup, saidMembers_eq_iff members]
      exact h

theorem saidItems_eq_iff : ∀ items : List Json,
    saidItems items = constantsOf items ↔ KeyedItems items
  | [] => iff_of_true rfl trivial
  | item :: rest => by
    rw [saidItems, constantsOf, List.cons.injEq, said_eq_iff item, saidItems_eq_iff rest]
    rfl

theorem saidMembers_eq_iff : ∀ members : List (String × Json),
    saidMembers members = entriesOf members ↔ KeyedMembers members
  | [] => iff_of_true rfl trivial
  | (key, v) :: rest => by
    rw [saidMembers, entriesOf, List.cons.injEq, Prod.mk.injEq, said_eq_iff v,
      saidMembers_eq_iff rest]
    exact and_congr_left' (and_iff_right rfl)

end

/-! ### Texts -/

/-- A text without the two characters that may not stand in quotes as they are, and have no escape
there. -/
def Quotable (text : String) : Prop := ∀ c ∈ text.toList, c ≠ '\r' ∧ c ≠ '\x00'

section Texts
variable {c : Char} {cs rest front back : List Char}

/-- A character has an escape that stands for it, or is written as it is. -/
theorem escapeChar_pair_or_self (c : Char) :
    ((c ≠ '\r' ∧ c ≠ '\x00') ∧
        ∃ d, d ≠ 'x' ∧ escaped? d = some c ∧ escapeChar c = ['\\', d]) ∨
      (c ≠ '\\' ∧ c ≠ '\x27' ∧ c ≠ '\n' ∧ escapeChar c = [c]) := by
  obtain ⟨rfl, h⟩ | ⟨rfl, h⟩ | ⟨rfl, h⟩ | ⟨hslash, hquote, h⟩ := escapeChar_cases c
  · exact .inl ⟨by decide, '\\', by decide, rfl, h⟩
  · exact .inl ⟨by decide, '\x27', by decide, rfl, h⟩
  · exact .inl ⟨by decide, 'n', by decide, rfl, h⟩
  · refine .inr ⟨hslash, hquote, ?_, h⟩
    rintro rfl
    exact absurd h (by decide)

theorem readText?_escape {d e : Char} (hd : d ≠ 'x') (he : escaped? d = some e)
    (rest : List Char) :
    readText? ('\\' :: d :: rest) = (readText? rest).map fun p => (e :: p.1, p.2) := by
  rw [readText?, he]
  · cases readText? rest <;> rfl
  · exact fun _ _ _ hx _ => hd hx

theorem readText?_escapeChar (hc : c ≠ '\r' ∧ c ≠ '\x00') (rest : List Char) :
    readText? (escapeChar c ++ rest) = (readText? rest).map fun p => (c :: p.1, p.2) := by
  obtain ⟨_, d, hd, he, h⟩ | ⟨hslash, hquote, hline, h⟩ := escapeChar_pair_or_self c
  · rw [h]
    exact readText?_escape hd he rest
  · rw [h, List.singleton_append,
      readText?_cons hquote hslash (isBarred_eq_false.2 ⟨hline, hc.1, hc.2⟩)]

theorem readText?_flatMap_escapeChar (h : ∀ c ∈ cs, c ≠ '\r' ∧ c ≠ '\x00') (rest : List Char) :
    readText? (cs.flatMap escapeChar ++ '\x27' :: rest) = some (cs, rest) := by
  induction cs with
  | nil => rfl
  | cons c cs ih =>
    obtain ⟨hc, hcs⟩ := List.forall_mem_cons.1 h
    rw [List.flatMap_cons, List.append_assoc, readText?_escapeChar hc, ih hcs]
    rfl

/-- Behind an escape, what is no text stays none. -/
theorem readText?_escapeChar_none (h : readText? rest = none) :
    readText? (escapeChar c ++ rest) = none := by
  by_cases hc : c ≠ '\r' ∧ c ≠ '\x00'
  · rw [readText?_escapeChar hc, h]
    rfl
  · have hc : c = '\r' ∨ c = '\x00' := by
      by_contra hne
      exact hc (not_or.1 hne)
    obtain rfl | rfl := hc <;> rfl

/-- Nothing that an escape starts with is a text. -/
theorem readText?_of_append_eq {front back : List Char} (h : escapeChar c = front ++ back) :
    readText? front = none := by
  cases back with
  | nil =>
    rw [← List.append_nil front, ← h, ← List.append_nil (escapeChar c)]
    exact readText?_escapeChar_none rfl
  | cons d back =>
    cases front with
    | nil => rfl
    | cons e front =>
      obtain ⟨_, d', _, _, hpair⟩ | ⟨_, _, _, hself⟩ := escapeChar_pair_or_self c
      · rw [hpair, List.cons_append, List.cons.injEq] at h
        obtain ⟨rfl, h⟩ := h
        cases front with
        | nil => rfl
        | cons _ _ => simp at h
      · rw [hself, List.cons_append, List.cons.injEq] at h
        simp at h

/-- **No text ends early**: what stands behind the first quote of a text is not closed in front of
its last quote. -/
theorem readText?_of_front {front back : List Char}
    (h : cs.flatMap escapeChar ++ ['\x27'] = front ++ back) (hback : back ≠ []) :
    readText? front = none := by
  induction cs generalizing front with
  | nil =>
    cases front with
    | nil => rfl
    | cons d front =>
      have hnil : [] = front ++ back := (List.cons.inj h).2
      exact absurd (List.append_eq_nil_iff.1 hnil.symm).2 hback
  | cons c cs ih =>
    rw [List.flatMap_cons, List.append_assoc, List.append_eq_append_iff] at h
    obtain ⟨front', rfl, h⟩ | ⟨more, hescape, _⟩ := h
    · exact readText?_escapeChar_none (ih h)
    · exact readText?_of_append_eq hescape

theorem plain_escapeChar : Plain (escapeChar c) ↔ c ≠ '\r' ∧ c ≠ '\x00' := by
  have hnil : Plain [] := nofun
  obtain ⟨hc, d, _, he, h⟩ | ⟨_, _, hline, h⟩ := escapeChar_pair_or_self c
  · rw [h, plain_cons, plain_cons]
    exact iff_of_true ⟨by decide, isBarred_of_some (by decide) he, hnil⟩ hc
  · rw [h, plain_cons, isBarred_eq_false]
    exact ⟨fun hc => hc.1.2, fun hc => ⟨⟨hline, hc⟩, hnil⟩⟩

theorem plain_quotedChars {s : String} : Plain (quotedChars s) ↔ Quotable s := by
  have hquote : isBarred '\x27' = false := by decide
  unfold quotedChars
  rw [plain_cons, plain_append, plain_cons]
  have hnil : Plain [] := nofun
  simp only [hquote, hnil, and_true, true_and]
  unfold Quotable
  simp only [← plain_escapeChar, Plain, List.mem_flatMap]
  constructor
  · intro h c hc d hd
    exact h d ⟨c, hc, hd⟩
  · intro h d ⟨c, hc, hd⟩
    exact h c hc d hd

end Texts

/-! ### Which literals are plain -/

theorem plain_between {words : List (List Char)} :
    Plain (between [',', ' '] words) ↔ ∀ word ∈ words, Plain word := by
  have hcommas : ∀ words : List (List Char),
      Plain (words.flatMap ([',', ' '] ++ ·)) ↔ ∀ word ∈ words, Plain word := by
    intro words
    induction words with
    | nil => exact iff_of_true nofun nofun
    | cons word rest ih =>
      have hcomma : Plain [',', ' '] := by decide
      rw [List.flatMap_cons, plain_append, plain_append, ih, List.forall_mem_cons]
      exact and_congr_left' (and_iff_right hcomma)
  cases words with
  | nil => exact iff_of_true nofun nofun
  | cons word rest => rw [between, plain_append, hcommas, List.forall_mem_cons]

/-- What stands between brackets is plain if what they hold is. -/
theorem plain_bracketed {first last : Char} {words : List (List Char)}
    (h : Plain [first, last]) :
    Plain (first :: (between [',', ' '] words ++ [last])) ↔ ∀ word ∈ words, Plain word := by
  obtain ⟨hfirst, hlast⟩ := plain_cons.1 h
  rw [plain_cons, plain_append, plain_between]
  exact ⟨fun h => h.2.1, fun h => ⟨hfirst, h, hlast⟩⟩

mutual

theorem plain_spell : ∀ v : Json,
    Plain (literalSpelling.spell v) ↔ ∀ s ∈ v.strings, Quotable s
  | .null => iff_of_true (plain_of_isWord literalSpelling.isWord_null) nofun
  | .bool b => iff_of_true (plain_of_isWord (literalSpelling.isWord_bool b)) nofun
  | .number n => iff_of_true (plain_of_isWord (literalSpelling.isWord_number n)) nofun
  | .string s => by
    rw [Spelling.spell, strings, List.forall_mem_singleton]
    exact plain_quotedChars
  | .array items => by
    rw [Spelling.spell, strings, ← plain_spellItems items]
    exact plain_bracketed (by decide)
  | .object members => by
    rw [Spelling.spell, strings, ← plain_spellMembers members]
    exact plain_bracketed (by decide)

theorem plain_spellItems : ∀ items : List Json,
    (∀ word ∈ literalSpelling.spellItems items, Plain word) ↔ ∀ s ∈ itemStrings items, Quotable s
  | [] => iff_of_true nofun nofun
  | item :: rest => by
    rw [Spelling.spellItems, itemStrings, List.forall_mem_cons, List.forall_mem_append,
      plain_spell item, plain_spellItems rest]

theorem plain_spellMembers : ∀ members : List (String × Json),
    (∀ word ∈ literalSpelling.spellMembers members, Plain word) ↔
      ∀ s ∈ memberStrings members, Quotable s
  | [] => iff_of_true nofun nofun
  | (key, v) :: rest => by
    have hkey : Plain (literalSpelling.text key ++ literalSpelling.colon) ↔ Quotable key := by
      rw [plain_append]
      exact (and_iff_left (by decide)).trans plain_quotedChars
    rw [Spelling.spellMembers, memberStrings, List.forall_mem_cons, List.forall_mem_cons,
      List.forall_mem_append, plain_append, hkey, plain_spell v, plain_spellMembers rest,
      and_assoc]

end

/-! ### Reading literals -/

section Reading
variable {fuel : Nat} {word : List Char} {v : Constant}

/-- Words between commas are as many and as long as their characters allow. -/
theorem length_between (words : List (List Char)) :
    words.length ≤ (between [',', ' '] words).length + 1 ∧
      ∀ word ∈ words, word.length ≤ (between [',', ' '] words).length := by
  have hcommas : ∀ words : List (List Char),
      words.length ≤ (words.flatMap ([',', ' '] ++ ·)).length ∧
        ∀ word ∈ words, word.length ≤ (words.flatMap ([',', ' '] ++ ·)).length := by
    intro words
    induction words with
    | nil => exact ⟨Nat.le_refl 0, nofun⟩
    | cons word rest ih =>
      obtain ⟨hcount, hlong⟩ := ih
      rw [List.flatMap_cons, List.forall_mem_cons]
      simp only [List.length_cons, List.length_append, List.length_nil]
      exact ⟨by omega, by omega, fun other h => Nat.le_trans (hlong other h) (by omega)⟩
  cases words with
  | nil => exact ⟨Nat.zero_le _, nofun⟩
  | cons word rest =>
    obtain ⟨hcount, hlong⟩ := hcommas rest
    rw [between, List.forall_mem_cons, List.length_cons, List.length_append]
    exact ⟨by omega, by omega, fun other h => Nat.le_trans (hlong other h) (by omega)⟩

theorem reads_word (hword : IsWord word) (hv : word? word = some v) :
    Reads (readConstant? (fuel + 1)) word v := by
  intro rest hrest
  have hopens : Opens (word ++ rest) .word := hword.opens.append
  have htake := takeWhile_of_word hword hrest
  have hdrop : (word ++ rest).dropWhile isWordChar = rest := by
    have hboth := List.takeWhile_append_dropWhile (p := isWordChar) (l := word ++ rest)
    rw [htake] at hboth
    exact List.append_cancel_left hboth
  rw [readConstant?, skipGap_opens ⟨_, hopens⟩]
  split
  · next h => cases hopens.unique ⟨'\x27', _, h, rfl⟩
  · next h => cases hopens.unique ⟨'[', _, h, rfl⟩
  · next h => cases hopens.unique ⟨'\x7b', _, h, rfl⟩
  · rw [htake, hdrop, hv]
    rfl

theorem reads_text {s : String} (h : Quotable s) :
    Reads (readConstant? (fuel + 1)) (quotedChars s) (.text s) := by
  intro rest _
  have hread := readText?_flatMap_escapeChar h rest
  show (readText? ((s.toList.flatMap escapeChar ++ ['\x27']) ++ rest) >>= _) = _
  rw [List.append_assoc, List.singleton_append, hread]
  show some (Constant.text (String.ofList s.toList), rest) = _
  rw [String.ofList_toList]

theorem word?_number (n : Number) : word? n.text.toList = some (.number n.text) := by
  have hnone : n.text.toList ≠ "None".toList := literalSpelling.number_ne_null n
  have htrue : n.text.toList ≠ "True".toList := literalSpelling.number_ne_bool n true
  have hfalse : n.text.toList ≠ "False".toList := literalSpelling.number_ne_bool n false
  obtain ⟨l, hl⟩ := n.isNumeral_text
  rw [word?, if_neg hnone, if_neg htrue, if_neg hfalse, hl]
  show some (Constant.number (String.ofList n.text.toList)) = _
  rw [String.ofList_toList]

theorem readConstant?_blank (cs : List Char) :
    readConstant? fuel (' ' :: cs) = readConstant? fuel cs := by
  cases fuel with
  | zero => rfl
  | succ fuel => rw [readConstant?, readConstant?, skipGap_blank]

theorem reads_member {key : String} (hkey : Quotable key) (hv : Reads (readConstant? fuel) word v) :
    Reads (readMember? (readConstant? fuel))
      (literalSpelling.text key ++ literalSpelling.colon ++ word) (key, v) := by
  intro rest hrest
  have hread := readText?_flatMap_escapeChar hkey (':' :: ' ' :: (word ++ rest))
  have hchars : literalSpelling.text key ++ literalSpelling.colon ++ word ++ rest =
      '\x27' :: (key.toList.flatMap escapeChar ++ '\x27' :: ':' :: ' ' :: (word ++ rest)) := by
    show quotedChars key ++ [':', ' '] ++ word ++ rest = _
    simp [quotedChars]
  rw [hchars]
  show (readText? (key.toList.flatMap escapeChar ++ '\x27' :: ':' :: ' ' :: (word ++ rest)) >>= _) =
    _
  rw [hread]
  show (readConstant? fuel (' ' :: (word ++ rest)) >>= _) = _
  rw [readConstant?_blank, hv rest hrest]
  show some ((String.ofList key.toList, v), rest) = _
  rw [String.ofList_toList]

/-- Fuel for a list or dictionary is enough for what its brackets hold, one step less. -/
theorem exists_fuel {first last : Char} {words : List (List Char)}
    (h : (first :: (between [',', ' '] words ++ [last])).length ≤ fuel) :
    ∃ n, fuel = n + 1 ∧ words.length < n + 1 ∧ ∀ word ∈ words, word.length ≤ n := by
  obtain ⟨hcount, hlong⟩ := length_between words
  rw [List.length_cons, List.length_append, List.length_singleton] at h
  cases fuel with
  | zero => cases h
  | succ n =>
    refine ⟨n, rfl, by omega, fun word hword => ?_⟩
    have := hlong word hword
    omega

mutual

/-- **A literal is read whole**, if the strings of its value lack the two characters. The
induction is on the value; every part has enough fuel, since it is shorter than the whole. -/
theorem reads_spell : ∀ (v : Json) {fuel : Nat}, (literalSpelling.spell v).length ≤ fuel →
    (∀ s ∈ v.strings, Quotable s) →
    Reads (readConstant? (fuel + 1)) (literalSpelling.spell v) (said v)
  | .null, _, _, _ => reads_word literalSpelling.isWord_null rfl
  | .bool true, _, _, _ => reads_word (literalSpelling.isWord_bool true) rfl
  | .bool false, _, _, _ => reads_word (literalSpelling.isWord_bool false) rfl
  | .number n, _, _, _ => reads_word (literalSpelling.isWord_number n) (word?_number n)
  | .string s, _, _, h => reads_text (h s List.mem_cons_self)
  | .array items, _, hfuel, h => by
    obtain ⟨n, rfl, hcount, hlong⟩ := exists_fuel hfuel
    intro rest _
    have hread := readParts?_between (.inl rfl) Spelling.opens_of_mem_spellItems
      (reads_spellItems items hlong h) hcount rest
    rw [Spelling.spell, List.cons_append, List.append_assoc, List.singleton_append]
    show (readParts? ']' (readConstant? (n + 1)) (n + 1)
      (between [',', ' '] (literalSpelling.spellItems items) ++ ']' :: rest) >>= _) = _
    rw [hread]
    rfl
  | .object members, _, hfuel, h => by
    obtain ⟨n, rfl, hcount, hlong⟩ := exists_fuel hfuel
    intro rest _
    have hread := readParts?_between (.inr rfl) Spelling.opens_of_mem_spellMembers
      (reads_spellMembers members hlong h) hcount rest
    rw [Spelling.spell, List.cons_append, List.append_assoc, List.singleton_append]
    show (readParts? '\x7d' (readMember? (readConstant? (n + 1))) (n + 1)
      (between [',', ' '] (literalSpelling.spellMembers members) ++ '\x7d' :: rest) >>= _) = _
    rw [hread]
    rfl

theorem reads_spellItems : ∀ (items : List Json) {fuel : Nat},
    (∀ word ∈ literalSpelling.spellItems items, word.length ≤ fuel) →
    (∀ s ∈ itemStrings items, Quotable s) →
    List.Forall₂ (Reads (readConstant? (fuel + 1))) (literalSpelling.spellItems items)
      (saidItems items)
  | [], _, _, _ => .nil
  | item :: rest, _, hfuel, h => by
    rw [Spelling.spellItems, List.forall_mem_cons] at hfuel
    rw [itemStrings, List.forall_mem_append] at h
    exact .cons (reads_spell item hfuel.1 h.1) (reads_spellItems rest hfuel.2 h.2)

theorem reads_spellMembers : ∀ (members : List (String × Json)) {fuel : Nat},
    (∀ word ∈ literalSpelling.spellMembers members, word.length ≤ fuel) →
    (∀ s ∈ memberStrings members, Quotable s) →
    List.Forall₂ (Reads (readMember? (readConstant? (fuel + 1))))
      (literalSpelling.spellMembers members) (saidMembers members)
  | [], _, _, _ => .nil
  | (key, v) :: rest, _, hfuel, h => by
    rw [Spelling.spellMembers, List.forall_mem_cons, List.length_append] at hfuel
    rw [memberStrings, List.forall_mem_cons, List.forall_mem_append] at h
    exact .cons (reads_member h.1 (reads_spell v (by omega) h.2.1))
      (reads_spellMembers rest hfuel.2 h.2.2)

end

end Reading

/-! ### What literals evaluate to -/

/-- A text that lies on one line. -/
def OnOneLine (text : String) : Prop := ∀ c ∈ text.toList, c ≠ '\n' ∧ c ≠ '\r'

/-- Nothing closes a text in quotes but its last quote. -/
def EndsOnce (text : String) : Prop :=
  ∀ front back, (quoted text).toList = '\x27' :: (front ++ back) → back ≠ [] →
    readText? front = none

theorem endsOnce (text : String) : EndsOnce text := by
  intro front back h hback
  rw [toList_quoted] at h
  exact readText?_of_front (List.cons.inj h).2 hback

section Evaluation
variable {v : Json}

theorem plain_literal_iff : Plain (literal v).toList ↔ ∀ s ∈ v.strings, Quotable s := by
  rw [toList_literal, plain_spell]

/-- A literal evaluates to what its value says, if no string in it has one of the two characters. -/
theorem literalValue?_literal (h : ∀ s ∈ v.strings, Quotable s) :
    literalValue? (literal v) = some (said v) := by
  have hread := reads_spell v (Nat.le_refl _) h [] nofun
  rw [List.append_nil] at hread
  rw [literalValue?, toList_literal, hread]
  rfl

/-- Otherwise a literal evaluates to nothing. -/
theorem literalValue?_literal_eq_none (h : ¬ ∀ s ∈ v.strings, Quotable s) :
    literalValue? (literal v) = none := by
  cases hv : literalValue? (literal v) with
  | none => rfl
  | some c => exact absurd (plain_literal_iff.1 (plain_of_literalValue? hv)) h

end Evaluation

/-- **Which literals evaluate to their values.** The literal of a value lies on one line and
evaluates to exactly the value if and only if no object in it names a key twice (no value that was
read does) and no string or key in it has a carriage return or the character zero; the line feed,
the quote and the backslash are no trouble. Whatever a string holds, nothing closes it but its last
quote. -/
theorem literal_evaluates_iff (v : Json) :
    (OnOneLine (literal v) ∧ literalValue? (literal v) = some (constantOf v) ↔
      v.Keyed ∧ ∀ s ∈ v.strings, Quotable s) ∧
    ∀ s ∈ v.strings, EndsOnce s := by
  refine ⟨⟨?_, ?_⟩, fun s _ => endsOnce s⟩
  · intro ⟨_, hv⟩
    have hquotable : ∀ s ∈ v.strings, Quotable s := by
      by_contra hnot
      rw [literalValue?_literal_eq_none hnot] at hv
      cases hv
    rw [literalValue?_literal hquotable] at hv
    exact ⟨(said_eq_iff v).1 (Option.some.inj hv), hquotable⟩
  · intro ⟨hkeyed, hquotable⟩
    refine ⟨fun c hc => ?_, ?_⟩
    · have hplain := isBarred_eq_false.1 (plain_literal_iff.2 hquotable c hc)
      exact ⟨hplain.1, hplain.2.1⟩
    · rw [literalValue?_literal hquotable, (said_eq_iff v).2 hkeyed]

example : literalValue? (literal (.object [("it's", .array [.null, .number (.integer 2)])])) =
    some (.dict [("it's", .list [.none, .number "2"])]) := by rfl

/-- A carriage return is written as it is, so the literal takes two lines and has no value. -/
theorem literal_not_evaluated_of_carriage_return :
    let v := Json.string "a\rb"
    v.Keyed ∧ literal v = "'a\rb'" ∧ ¬ OnOneLine (literal v) ∧
      literalValue? (literal v) = none := by
  refine ⟨trivial, by decide, fun hline => ?_, rfl⟩
  exact (hline '\r' (by decide)).2 rfl

end Source

end Bindery
