import Bindery.Proofs.Json.Alike
import Bindery.Proofs.Json.Numbers

/-! No two values are spelled alike.

A `Spelling` fixes how scalars are written and what follows commas and colons. The first character
of a value tells what it is (`Spelling.opens_spell`), words end where no word goes on
(`word_cancel`), texts where they say so, and arrays and objects at their closing bracket. So a
value can be taken off the front of a text, up to the spelling of its numbers
(`Spelling.alike_of_spell`). -/
namespace Bindery.Json

/-! ### Words -/

def isWordChar (c : Char) : Bool := c.isAlpha || isNumeric c

/-- A word of such characters. -/
def IsWord (cs : List Char) : Prop := cs ≠ [] ∧ cs.all isWordChar = true

instance (cs : List Char) : Decidable (IsWord cs) :=
  inferInstanceAs (Decidable (cs ≠ [] ∧ cs.all isWordChar = true))

/-- What stands behind a word: nothing that belongs to it. -/
def Stops (cs : List Char) : Prop := ∀ c ∈ cs.head?, isWordChar c = false

theorem stops_cons {c : Char} {cs : List Char} (h : isWordChar c = false) : Stops (c :: cs) := by
  intro d hd
  rwa [← Option.some.inj hd]

theorem takeWhile_of_word {word rest : List Char} (hword : IsWord word) (hrest : Stops rest) :
    (word ++ rest).takeWhile isWordChar = word := by
  rw [List.takeWhile_append_of_pos (List.all_eq_true.1 hword.2)]
  cases rest with
  | nil => simp
  | cons c rest =>
    have hc : isWordChar c = false := hrest c rfl
    simp [hc]

theorem word_cancel {a b xs ys : List Char} (ha : IsWord a) (hb : IsWord b) (hxs : Stops xs)
    (hys : Stops ys) (h : a ++ xs = b ++ ys) : a = b ∧ xs = ys := by
  have hab : a = b := by
    rw [← takeWhile_of_word ha hxs, h, takeWhile_of_word hb hys]
  subst hab
  exact ⟨rfl, List.append_cancel_left h⟩

theorem isWord_of_numeric {text : String} (h : Numeric text) (hne : text.toList ≠ []) :
    IsWord text.toList := by
  refine ⟨hne, List.all_eq_true.2 fun c hc => ?_⟩
  rw [isWordChar, numeric_iff.1 h c hc, Bool.or_true]

/-! ### First characters -/

/-- What a value starts with. -/
inductive Opening where
  | word
  | text
  | array
  | object
deriving DecidableEq

/-- What a character starts. -/
def opening? (c : Char) : Option Opening :=
  if isWordChar c then some .word
  else if c = '\x22' ∨ c = '\x27' then some .text
  else if c = '[' then some .array
  else if c = '\x7b' then some .object
  else none

/-- What a value starts with. -/
def opening : Json → Opening
  | .null => .word
  | .bool _ => .word
  | .number _ => .word
  | .string _ => .text
  | .array _ => .array
  | .object _ => .object

/-- The characters start with an opening. -/
def Opens (cs : List Char) (o : Opening) : Prop := ∃ c rest, cs = c :: rest ∧ opening? c = some o

theorem IsWord.opens {word : List Char} (h : IsWord word) : Opens word .word := by
  cases word with
  | nil => exact absurd rfl h.1
  | cons c rest =>
    have hc := List.all_eq_true.1 h.2 c List.mem_cons_self
    exact ⟨c, rest, rfl, by rw [opening?, if_pos hc]⟩

theorem Opens.append {cs xs : List Char} {o : Opening} (h : Opens cs o) : Opens (cs ++ xs) o := by
  obtain ⟨c, rest, rfl, hc⟩ := h
  exact ⟨c, rest ++ xs, rfl, hc⟩

theorem Opens.unique {cs : List Char} {o o' : Opening} (h : Opens cs o) (h' : Opens cs o') :
    o = o' := by
  obtain ⟨c, rest, rfl, hc⟩ := h
  obtain ⟨c', rest', hcons, hc'⟩ := h'
  rw [(List.cons.inj hcons).1, hc'] at hc
  exact (Option.some.inj hc).symm

/-! ### Spellings -/

/-- How values are spelled out. -/
structure Spelling where
  null : List Char
  bool : Bool → List Char
  number : Number → List Char
  text : String → List Char
  afterComma : List Char
  afterColon : List Char
  isWord_null : IsWord null
  isWord_bool : ∀ b, IsWord (bool b)
  isWord_number : ∀ n, IsWord (number n)
  bool_ne_null : ∀ b, bool b ≠ null
  bool_injective : ∀ {b b'}, bool b = bool b' → b = b'
  number_ne_null : ∀ n, number n ≠ null
  number_ne_bool : ∀ n b, number n ≠ bool b
  opens_text : ∀ s, Opens (text s) .text
  text_cancel : ∀ {s t xs ys}, text s ++ xs = text t ++ ys → s = t ∧ xs = ys

/-- Words with a separator between neighbours. -/
def between (sep : List Char) : List (List Char) → List Char
  | [] => []
  | word :: rest => word ++ rest.flatMap (sep ++ ·)

namespace Spelling
variable (p : Spelling)

/-- A comma, and what follows it. -/
def comma : List Char := ',' :: p.afterComma

/-- A colon, and what follows it. -/
def colon : List Char := ':' :: p.afterColon

mutual

/-- A value spelled out. -/
def spell : Json → List Char
  | .null => p.null
  | .bool b => p.bool b
  | .number n => p.number n
  | .string s => p.text s
  | .array items => '[' :: (between p.comma (spellItems items) ++ [']'])
  | .object members => '\x7b' :: (between p.comma (spellMembers members) ++ ['\x7d'])

def spellItems : List Json → List (List Char)
  | [] => []
  | item :: rest => spell item :: spellItems rest

def spellMembers : List (String × Json) → List (List Char)
  | [] => []
  | (key, value) :: rest => (p.text key ++ p.colon ++ spell value) :: spellMembers rest

end

variable {p}

theorem opens_spell (v : Json) : Opens (p.spell v) v.opening := by
  cases v with
  | null => exact p.isWord_null.opens
  | bool b => exact (p.isWord_bool b).opens
  | number n => exact (p.isWord_number n).opens
  | string s => exact p.opens_text s
  | array items =>
    have hopening : opening? '[' = some .array := by decide
    exact ⟨'[', _, by rw [spell], hopening⟩
  | object members =>
    have hopening : opening? '\x7b' = some .object := by decide
    exact ⟨'\x7b', _, by rw [spell], hopening⟩

theorem opens_of_mem_spellItems {items : List Json} :
    ∀ word ∈ p.spellItems items, ∃ o, Opens word o := by
  induction items with
  | nil => simp [spellItems]
  | cons item rest ih =>
    intro word hword
    rcases List.mem_cons.1 hword with rfl | hrest
    · exact ⟨_, opens_spell item⟩
    · exact ih word hrest

theorem opens_of_mem_spellMembers {members : List (String × Json)} :
    ∀ word ∈ p.spellMembers members, ∃ o, Opens word o := by
  induction members with
  | nil => simp [spellMembers]
  | cons member rest ih =>
    obtain ⟨key, v⟩ := member
    intro word hword
    rcases List.mem_cons.1 hword with rfl | hrest
    · exact ⟨_, (p.opens_text key).append.append⟩
    · exact ih word hrest

/-- What begins no value is not what values begin with. -/
theorem between_ne {word : List Char} {words : List (List Char)} {close : Char}
    {xs ys : List Char} (hword : ∃ o, Opens word o) (hclose : opening? close = none) :
    close :: xs ≠ between p.comma (word :: words) ++ ys := by
  intro h
  obtain ⟨o, c, rest, rfl, hc⟩ := hword
  rw [between, List.cons_append, List.cons_append] at h
  rw [← (List.cons.inj h).1, hclose] at hc
  cases hc

/-- What stands between brackets, with a comma in front of every value. -/
theorem commas_of_between {as bs : List (List Char)} {close : Char} {xs ys : List Char}
    (has : ∀ word ∈ as, ∃ o, Opens word o) (hbs : ∀ word ∈ bs, ∃ o, Opens word o)
    (hclose : opening? close = none)
    (h : between p.comma as ++ close :: xs = between p.comma bs ++ close :: ys) :
    as.flatMap (p.comma ++ ·) ++ close :: xs = bs.flatMap (p.comma ++ ·) ++ close :: ys := by
  cases as with
  | nil =>
    cases bs with
    | nil => exact h
    | cons b bs => exact absurd h (between_ne (hbs b List.mem_cons_self) hclose)
  | cons a as =>
    cases bs with
    | nil => exact absurd h.symm (between_ne (has a List.mem_cons_self) hclose)
    | cons b bs =>
      rw [between, between] at h
      simpa [List.flatMap_cons, List.append_assoc] using h

/-- Behind a value of a list stands a comma or a closing bracket. -/
theorem stops_commas {words : List (List Char)} {close : Char} {xs : List Char}
    (hclose : isWordChar close = false) :
    Stops (words.flatMap (p.comma ++ ·) ++ close :: xs) := by
  cases words with
  | nil => exact stops_cons hclose
  | cons word rest => exact stops_cons (by decide)

theorem isWord_spell {v : Json} (hv : v.opening = .word) : IsWord (p.spell v) := by
  cases v with
  | null => exact p.isWord_null
  | bool b => exact p.isWord_bool b
  | number n => exact p.isWord_number n
  | string s => cases hv
  | array items => cases hv
  | object members => cases hv

variable (p) in
/-- Values are alike up to the spelling of numbers. -/
abbrev SpeltAlike : Json → Json → Prop := Alike (fun n n' => p.number n = p.number n') False

/-- Words that are spelled alike are alike. -/
theorem alike_of_spell_eq {v w : Json} (hv : v.opening = .word) (hw : w.opening = .word)
    (h : p.spell v = p.spell w) : p.SpeltAlike v w := by
  cases v with
  | null =>
    cases w with
    | null => exact .refl _
    | bool b => exact absurd h.symm (p.bool_ne_null b)
    | number n => exact absurd h.symm (p.number_ne_null n)
    | string _ | array _ | object _ => cases hw
  | bool b =>
    cases w with
    | null => exact absurd h (p.bool_ne_null b)
    | bool b' =>
      rw [p.bool_injective h]
      exact .refl _
    | number n => exact absurd h.symm (p.number_ne_bool n b)
    | string _ | array _ | object _ => cases hw
  | number n =>
    cases w with
    | null => exact absurd h (p.number_ne_null n)
    | bool b => exact absurd h (p.number_ne_bool n b)
    | number n' => exact .number h
    | string _ | array _ | object _ => cases hw
  | string _ | array _ | object _ => cases hv

theorem opening_eq {v w : Json} {xs ys : List Char} (h : p.spell v ++ xs = p.spell w ++ ys) :
    w.opening = v.opening :=
  (opens_spell w).append.unique (h ▸ (opens_spell v).append)

theorem alike_of_word {v w : Json} {xs ys : List Char} (hv : v.opening = .word) (hxs : Stops xs)
    (hys : Stops ys) (h : p.spell v ++ xs = p.spell w ++ ys) :
    p.SpeltAlike v w ∧ xs = ys := by
  have hw : w.opening = .word := (opening_eq h).trans hv
  obtain ⟨heq, hrest⟩ := word_cancel (isWord_spell hv) (isWord_spell hw) hxs hys h
  exact ⟨alike_of_spell_eq hv hw heq, hrest⟩

mutual

/-- **A value can be taken off the front.** The induction is on the first of two values that are
spelled in front of texts that cannot go on with a word. -/
theorem alike_of_spell : ∀ (v w : Json) {xs ys : List Char}, Stops xs → Stops ys →
    p.spell v ++ xs = p.spell w ++ ys → p.SpeltAlike v w ∧ xs = ys
  | .null, _, _, _, hxs, hys, h => alike_of_word rfl hxs hys h
  | .bool _, _, _, _, hxs, hys, h => alike_of_word rfl hxs hys h
  | .number _, _, _, _, hxs, hys, h => alike_of_word rfl hxs hys h
  | .string s, w, xs, ys, _, _, h => by
    have hw := opening_eq h
    cases w with
    | string t =>
      obtain ⟨rfl, hrest⟩ := p.text_cancel h
      exact ⟨.refl _, hrest⟩
    | null | bool _ | number _ | array _ | object _ => cases hw
  | .array items, w, xs, ys, _, _, h => by
    have hw := opening_eq h
    cases w with
    | array items' =>
      rw [spell, spell, List.cons_append, List.cons_append, List.cons.injEq, List.append_assoc,
        List.append_assoc] at h
      obtain ⟨hitems, hrest⟩ := alike_of_spellItems items items'
        (commas_of_between opens_of_mem_spellItems opens_of_mem_spellItems (by decide) h.2)
      exact ⟨.array hitems, hrest⟩
    | null | bool _ | number _ | string _ | object _ => cases hw
  | .object members, w, xs, ys, _, _, h => by
    have hw := opening_eq h
    cases w with
    | object members' =>
      rw [spell, spell, List.cons_append, List.cons_append, List.cons.injEq, List.append_assoc,
        List.append_assoc] at h
      obtain ⟨hmembers, hrest⟩ := alike_of_spellMembers members members'
        (commas_of_between opens_of_mem_spellMembers opens_of_mem_spellMembers (by decide) h.2)
      exact ⟨.object hmembers, hrest⟩
    | null | bool _ | number _ | string _ | array _ => cases hw

/-- Items with a comma in front of each, so that what is left of them looks like all of them. -/
theorem alike_of_spellItems : ∀ (items items' : List Json) {xs ys : List Char},
    (p.spellItems items).flatMap (p.comma ++ ·) ++ ']' :: xs =
      (p.spellItems items').flatMap (p.comma ++ ·) ++ ']' :: ys →
    List.Forall₂ p.SpeltAlike items items' ∧ xs = ys
  | [], [], _, _, h => ⟨.nil, (List.cons.inj h).2⟩
  | [], _ :: _, _, _, h => absurd (List.cons.inj h).1 (by decide)
  | _ :: _, [], _, _, h => absurd (List.cons.inj h).1 (by decide)
  | v :: rest, w :: rest', xs, ys, h => by
    simp only [spellItems, List.flatMap_cons, List.append_assoc] at h
    -- what follows an item is a comma or the bracket, and neither goes on with a word
    obtain ⟨hv, hrest⟩ := alike_of_spell v w (stops_commas (by decide)) (stops_commas (by decide))
      (List.append_cancel_left h)
    obtain ⟨hitems, hxs⟩ := alike_of_spellItems rest rest' hrest
    exact ⟨.cons hv hitems, hxs⟩

theorem alike_of_spellMembers : ∀ (members members' : List (String × Json)) {xs ys : List Char},
    (p.spellMembers members).flatMap (p.comma ++ ·) ++ '\x7d' :: xs =
      (p.spellMembers members').flatMap (p.comma ++ ·) ++ '\x7d' :: ys →
    List.Forall₂ (MemberAlike (fun n n' => p.number n = p.number n') False) members members' ∧
      xs = ys
  | [], [], _, _, h => ⟨.nil, (List.cons.inj h).2⟩
  | [], _ :: _, _, _, h => absurd (List.cons.inj h).1 (by decide)
  | _ :: _, [], _, _, h => absurd (List.cons.inj h).1 (by decide)
  | (key, v) :: rest, (key', w) :: rest', xs, ys, h => by
    simp only [spellMembers, List.flatMap_cons, List.append_assoc] at h
    obtain ⟨rfl, hvalue⟩ := p.text_cancel (List.append_cancel_left h)
    obtain ⟨hv, hrest⟩ := alike_of_spell v w (stops_commas (by decide)) (stops_commas (by decide))
      (List.append_cancel_left hvalue)
    obtain ⟨hmembers, hxs⟩ := alike_of_spellMembers rest rest' hrest
    exact ⟨.cons ⟨rfl, hv⟩ hmembers, hxs⟩

end

/-! ### Spelled alike -/

theorem spellItems_eq_map (items : List Json) : p.spellItems items = items.map p.spell := by
  induction items with
  | nil => rfl
  | cons item rest ih => rw [spellItems, ih, List.map_cons]

theorem spellMembers_eq_map (members : List (String × Json)) :
    p.spellMembers members = members.map fun m => p.text m.1 ++ p.colon ++ p.spell m.2 := by
  induction members with
  | nil => rfl
  | cons member rest ih =>
    obtain ⟨key, v⟩ := member
    rw [spellMembers, ih, List.map_cons]

/-- **Values are spelled alike if and only if they are alike** up to the spelling of numbers. -/
theorem spell_eq_iff {v w : Json} : p.spell v = p.spell w ↔ p.SpeltAlike v w := by
  constructor
  · intro h
    have hnil : Stops [] := nofun
    exact (alike_of_spell v w hnil hnil (congrArg (· ++ []) h)).1
  · intro h
    induction h with
    | refl v => rfl
    | symm _ ih => exact ih.symm
    | trans _ _ ih ih' => exact ih.trans ih'
    | number h => exact h
    | item _ ih => simp only [spell, spellItems_eq_map, List.map_append, List.map_cons, ih]
    | member _ ih => simp only [spell, spellMembers_eq_map, List.map_append, List.map_cons, ih]
    | swap h _ => exact h.elim

end Spelling

end Bindery.Json
