import Bindery.Json.Reader
import Bindery.Proofs.Json.Spelling

/-! Literals as Python reads them.

`literalValue?` is the grammar of literals: the three names, numbers, texts in single quotes,
lists and dictionaries, all on one line. A number stands for its text. In a text a backslash begins
an escape, and an end of line or the character zero may not stand there as they are.

What is read is plain (`plain_of_literalValue?`): no such character stands anywhere in a text that
has a value. Parts of a list or dictionary are read one after the other, whatever they are
(`readParts?_between`). -/
namespace Bindery.Source
open Json

/-- What a literal stands for. A number is known by its text, a dictionary by its entries in
order. -/
inductive Constant where
  | none
  | bool (value : Bool)
  | number (text : String)
  | text (value : String)
  | list (items : List Constant)
  | dict (entries : List (String × Constant))

/-- What may not stand in a text as it is: what ends a line, and the character zero. -/
def isBarred (c : Char) : Bool := c == '\n' || c == '\r' || c == '\x00'

/-- What may stand between the parts of a literal. -/
def isGap (c : Char) : Bool := c == ' ' || c == '\t'

/-- Characters without the gap in front. -/
def skipGap (cs : List Char) : List Char := cs.dropWhile isGap

/-! ### Texts -/

/-- The character that a backslash and a character stand for. -/
def escaped? (c : Char) : Option Char :=
  if c = '\\' ∨ c = '\x27' ∨ c = '\x22' then some c
  else if c = 'n' then some '\n'
  else if c = 'r' then some '\r'
  else if c = 't' then some '\t'
  else if c = 'a' then some '\x07'
  else if c = 'b' then some '\x08'
  else if c = 'f' then some '\x0c'
  else if c = 'v' then some '\x0b'
  else none

/-- The characters up to the closing quote, and what follows it. -/
def readText? : List Char → Option (List Char × List Char)
  | [] => none
  | '\x27' :: rest => some ([], rest)
  | '\\' :: 'x' :: a :: b :: rest => do
    let code := 16 * (← hexValue? a) + (← hexValue? b)
    let (text, rest) ← readText? rest
    return (Char.ofNat code :: text, rest)
  | '\\' :: c :: rest => do
    let e ← escaped? c
    let (text, rest) ← readText? rest
    return (e :: text, rest)
  | c :: rest =>
    if c = '\\' ∨ isBarred c then none
    else do
      let (text, rest) ← readText? rest
      return (c :: text, rest)

/-! ### Values -/

/-- What a word stands for. A number is written as in JSON, which is one of Python's ways. -/
def word? (word : List Char) : Option Constant :=
  if word = "None".toList then some .none
  else if word = "True".toList then some (.bool true)
  else if word = "False".toList then some (.bool false)
  else
    match Numeral.read? word with
    | some (_, []) => some (.number (String.ofList word))
    | _ => none

/-- Parts with commas between them, and what follows the closing bracket. A comma may stand behind
the last part as well. -/
def readParts? {α : Type} (close : Char) (part? : List Char → Option (α × List Char)) :
    Nat → List Char → Option (List α × List Char)
  | 0, _ => none
  | fuel + 1, cs =>
    match skipGap cs with
    | [] => none
    | c :: rest =>
      if c = close then some ([], rest)
      else do
        let (part, rest) ← part? (c :: rest)
        match skipGap rest with
        | [] => none
        | c :: rest =>
          if c = close then some ([part], rest)
          else if c = ',' then do
            let (parts, rest) ← readParts? close part? fuel rest
            return (part :: parts, rest)
          else none

/-- A key with its value, and what follows them. -/
def readMember? (value? : List Char → Option (Constant × List Char)) (cs : List Char) :
    Option ((String × Constant) × List Char) :=
  match skipGap cs with
  | '\x27' :: rest => do
    let (key, rest) ← readText? rest
    match skipGap rest with
    | ':' :: rest => do
      let (value, rest) ← value? rest
      return ((String.ofList key, value), rest)
    | _ => none
  | _ => none

/-- A value, and what follows it. `fuel` bounds how deep values nest and how many stand side by
side; of two entries with one key, the later one counts. -/
def readConstant? : Nat → List Char → Option (Constant × List Char)
  | 0, _ => none
  | fuel + 1, cs =>
    match skipGap cs with
    | '\x27' :: rest => do
      let (text, rest) ← readText? rest
      return (.text (String.ofList text), rest)
    | '[' :: rest => do
      let (items, rest) ← readParts? ']' (readConstant? fuel) fuel rest
      return (.list items, rest)
    | '\x7b' :: rest => do
      let (entries, rest) ← readParts? '\x7d' (readMember? (readConstant? fuel)) fuel rest
      return (.dict (Entries.ofList entries), rest)
    | cs => do
      let value ← word? (cs.takeWhile isWordChar)
      return (value, cs.dropWhile isWordChar)

/-- The value of a literal; none if the text is not one literal. No value nests deeper or has more
parts than its text has characters. -/
def literalValue? (text : String) : Option Constant := do
  let (value, rest) ← readConstant? (text.toList.length + 1) text.toList
  if (skipGap rest).isEmpty then some value else none

/-! ### What is read is plain -/

/-- Characters that may all stand in a text as they are. -/
def Plain (cs : List Char) : Prop := ∀ c ∈ cs, isBarred c = false

instance (cs : List Char) : Decidable (Plain cs) := List.decidableBAll (isBarred · = false) cs

/-- Plain characters can be taken off the front of `cs` so that `rest` is left. -/
def Leaves (cs rest : List Char) : Prop := ∃ front, Plain front ∧ cs = front ++ rest

section Plain
variable {c : Char} {cs ds rest : List Char}

theorem plain_append : Plain (cs ++ ds) ↔ Plain cs ∧ Plain ds := List.forall_mem_append

theorem plain_cons : Plain (c :: cs) ↔ isBarred c = false ∧ Plain cs := List.forall_mem_cons

theorem isBarred_eq_false : isBarred c = false ↔ c ≠ '\n' ∧ c ≠ '\r' ∧ c ≠ '\x00' := by
  simp [isBarred, and_assoc]

/-- A kind of characters has no barred ones if it has none of the three. -/
theorem isBarred_of_mem {p : Char → Bool} (hp : p '\n' = false ∧ p '\r' = false ∧ p '\x00' = false)
    (hc : p c = true) : isBarred c = false := by
  rw [isBarred_eq_false]
  refine ⟨?_, ?_, ?_⟩
  · rintro rfl
    rw [hp.1] at hc
    cases hc
  · rintro rfl
    rw [hp.2.1] at hc
    cases hc
  · rintro rfl
    rw [hp.2.2] at hc
    cases hc

/-- A character that stands for something is not barred if none of the three does. -/
theorem isBarred_of_some {α : Type} {f : Char → Option α} {a : α}
    (hf : (f '\n').isSome = false ∧ (f '\r').isSome = false ∧ (f '\x00').isSome = false)
    (hc : f c = some a) : isBarred c = false :=
  isBarred_of_mem (p := fun c => (f c).isSome) hf (by rw [hc, Option.isSome_some])

theorem plain_of_isWord (h : IsWord cs) : Plain cs :=
  fun c hc => isBarred_of_mem (by decide) (List.all_eq_true.1 h.2 c hc)

theorem Leaves.refl (cs : List Char) : Leaves cs cs := ⟨[], nofun, rfl⟩

theorem Leaves.trans (h : Leaves cs ds) (h' : Leaves ds rest) : Leaves cs rest := by
  obtain ⟨front, hfront, rfl⟩ := h
  obtain ⟨front', hfront', rfl⟩ := h'
  exact ⟨front ++ front', plain_append.2 ⟨hfront, hfront'⟩, (List.append_assoc ..).symm⟩

theorem Leaves.cons (hc : isBarred c = false) (h : Leaves cs rest) : Leaves (c :: cs) rest := by
  obtain ⟨front, hfront, rfl⟩ := h
  exact ⟨c :: front, plain_cons.2 ⟨hc, hfront⟩, rfl⟩

theorem Leaves.plain (h : Leaves cs rest) (hrest : Plain rest) : Plain cs := by
  obtain ⟨front, hfront, rfl⟩ := h
  exact plain_append.2 ⟨hfront, hrest⟩

/-- Characters of a kind that has no barred ones can be taken off. -/
theorem leaves_dropWhile {p : Char → Bool} (hp : ∀ c, p c = true → isBarred c = false)
    (cs : List Char) : Leaves cs (cs.dropWhile p) := by
  refine ⟨cs.takeWhile p, fun c hc => ?_, List.takeWhile_append_dropWhile.symm⟩
  exact hp c (List.all_eq_true.1 List.all_takeWhile c hc)

theorem leaves_skipGap (cs : List Char) : Leaves cs (skipGap cs) :=
  leaves_dropWhile (fun _ => isBarred_of_mem (by decide)) cs

theorem leaves_skipGap_cons (h : skipGap cs = c :: rest) (hc : isBarred c = false) :
    Leaves cs rest := by
  have hskip := leaves_skipGap cs
  rw [h] at hskip
  exact hskip.trans ((Leaves.refl rest).cons hc)

theorem readText?_cons (hquote : c ≠ '\x27') (hslash : c ≠ '\\') (hc : isBarred c = false)
    (rest : List Char) :
    readText? (c :: rest) = (readText? rest).map fun p => (c :: p.1, p.2) := by
  rw [readText?, if_neg (by simp [hslash, hc])]
  · cases readText? rest <;> rfl
  · exact hquote
  · exact fun _ _ _ h => absurd h hslash
  · exact fun _ _ h => absurd h hslash

theorem leaves_readText? {text : List Char} (h : readText? cs = some (text, rest)) :
    Leaves cs rest := by
  induction cs using readText?.induct generalizing text with
  | case1 => cases h
  | case2 rest' =>
    obtain ⟨_, rfl⟩ := Prod.mk.inj (Option.some.inj h)
    exact (Leaves.refl _).cons (by decide)
  | case3 a b rest' ih =>
    simp only [readText?, Option.bind_eq_bind, Option.bind_eq_some_iff] at h
    obtain ⟨high, ha, low, hb, ⟨text', rest''⟩, hread, hpair⟩ := h
    obtain ⟨_, rfl⟩ := Prod.mk.inj (Option.some.inj hpair)
    have hdigits := ((ih hread).cons (isBarred_of_some (by decide) hb)).cons
      (isBarred_of_some (by decide) ha)
    exact (hdigits.cons (by decide)).cons (by decide)
  | case4 c rest' hx ih =>
    rw [readText?] at h
    · simp only [Option.bind_eq_bind, Option.bind_eq_some_iff] at h
      obtain ⟨e, he, ⟨text', rest''⟩, hread, hpair⟩ := h
      obtain ⟨_, rfl⟩ := Prod.mk.inj (Option.some.inj hpair)
      exact ((ih hread).cons (isBarred_of_some (by decide) he)).cons (by decide)
    · exact hx
  | case5 c rest' hquote hx hslash hbar =>
    rw [readText?, if_pos hbar] at h
    · cases h
    · exact hquote
    · exact hx
    · exact hslash
  | case6 c rest' hquote hx hslash hbar ih =>
    rw [not_or, Bool.not_eq_true] at hbar
    rw [readText?_cons hquote hbar.1 hbar.2] at h
    obtain ⟨⟨text', rest''⟩, hread, hpair⟩ := Option.map_eq_some_iff.1 h
    obtain ⟨_, rfl⟩ := Prod.mk.inj hpair
    exact (ih hread).cons hbar.2

variable {α : Type} {close : Char} {part? : List Char → Option (α × List Char)} {fuel : Nat}

theorem leaves_readParts? (hclose : isBarred close = false)
    (hpart : ∀ {cs a rest}, part? cs = some (a, rest) → Leaves cs rest) {parts : List α}
    (h : readParts? close part? fuel cs = some (parts, rest)) : Leaves cs rest := by
  induction fuel generalizing cs parts with
  | zero => cases h
  | succ fuel ih =>
    rw [readParts?] at h
    split at h
    · cases h
    · next c behind hgap =>
      split at h
      · next hc =>
        obtain ⟨_, rfl⟩ := Prod.mk.inj (Option.some.inj h)
        exact leaves_skipGap_cons hgap (hc ▸ hclose)
      · obtain ⟨⟨part, behind'⟩, hread, hmore⟩ := Option.bind_eq_some_iff.1 h
        have hfront : Leaves cs behind' := by
          have hskip := leaves_skipGap cs
          rw [hgap] at hskip
          exact hskip.trans (hpart hread)
        dsimp only at hmore
        split at hmore
        · cases hmore
        · next d behind'' hgap' =>
          split at hmore
          · next hd =>
            obtain ⟨_, rfl⟩ := Prod.mk.inj (Option.some.inj hmore)
            exact hfront.trans (leaves_skipGap_cons hgap' (hd ▸ hclose))
          · split at hmore
            · next hcomma =>
              obtain ⟨⟨parts', last⟩, hparts, hpair⟩ := Option.bind_eq_some_iff.1 hmore
              obtain ⟨_, rfl⟩ := Prod.mk.inj (Option.some.inj hpair)
              have hnext := leaves_skipGap_cons hgap' (hcomma ▸ by decide)
              exact (hfront.trans hnext).trans (ih hparts)
            · cases hmore

theorem leaves_readMember? {value? : List Char → Option (Constant × List Char)}
    (hvalue : ∀ {cs v rest}, value? cs = some (v, rest) → Leaves cs rest)
    {entry : String × Constant} (h : readMember? value? cs = some (entry, rest)) :
    Leaves cs rest := by
  unfold readMember? at h
  split at h
  · next behind hgap =>
    obtain ⟨⟨key, behind'⟩, hkey, h⟩ := Option.bind_eq_some_iff.1 h
    dsimp only at h
    split at h
    · next behind'' hgap' =>
      obtain ⟨⟨v, last⟩, hv, hpair⟩ := Option.bind_eq_some_iff.1 h
      obtain ⟨_, rfl⟩ := Prod.mk.inj (Option.some.inj hpair)
      have hfront := (leaves_skipGap_cons hgap (by decide)).trans (leaves_readText? hkey)
      exact (hfront.trans (leaves_skipGap_cons hgap' (by decide))).trans (hvalue hv)
    · cases h
  · cases h

theorem leaves_readConstant? {v : Constant} (h : readConstant? fuel cs = some (v, rest)) :
    Leaves cs rest := by
  induction fuel generalizing cs rest v with
  | zero => cases h
  | succ fuel ih =>
    rw [readConstant?] at h
    split at h
    · next behind hgap =>
      obtain ⟨⟨text, last⟩, hread, hpair⟩ := Option.bind_eq_some_iff.1 h
      obtain ⟨_, rfl⟩ := Prod.mk.inj (Option.some.inj hpair)
      exact (leaves_skipGap_cons hgap (by decide)).trans (leaves_readText? hread)
    · next behind hgap =>
      obtain ⟨⟨items, last⟩, hread, hpair⟩ := Option.bind_eq_some_iff.1 h
      obtain ⟨_, rfl⟩ := Prod.mk.inj (Option.some.inj hpair)
      exact (leaves_skipGap_cons hgap (by decide)).trans (leaves_readParts? (by decide) ih hread)
    · next behind hgap =>
      obtain ⟨⟨entries, last⟩, hread, hpair⟩ := Option.bind_eq_some_iff.1 h
      obtain ⟨_, rfl⟩ := Prod.mk.inj (Option.some.inj hpair)
      exact (leaves_skipGap_cons hgap (by decide)).trans
        (leaves_readParts? (by decide) (leaves_readMember? ih) hread)
    · obtain ⟨value, _, hpair⟩ := Option.bind_eq_some_iff.1 h
      obtain ⟨_, rfl⟩ := Prod.mk.inj (Option.some.inj hpair)
      exact (leaves_skipGap cs).trans (leaves_dropWhile (fun _ => isBarred_of_mem (by decide)) _)

/-- **What has a value is plain**: no end of line and no character zero stands in it. -/
theorem plain_of_literalValue? {text : String} {v : Constant}
    (h : literalValue? text = some v) : Plain text.toList := by
  simp only [literalValue?, Option.bind_eq_bind, Option.bind_eq_some_iff] at h
  obtain ⟨⟨value, rest⟩, hread, hend⟩ := h
  have hempty : (skipGap rest).isEmpty := by
    by_contra hmore
    simp [hmore] at hend
  have hrest := leaves_skipGap rest
  rw [List.isEmpty_iff.1 hempty] at hrest
  exact ((leaves_readConstant? hread).trans hrest).plain nofun

end Plain

/-! ### Parts one after the other -/

section Parts
variable {α : Type} {close : Char} {part? : List Char → Option (α × List Char)} {fuel : Nat}
  {words : List (List Char)} {parts : List α}

/-- A word is read as a part, in front of whatever does not go on with it. -/
def Reads (part? : List Char → Option (α × List Char)) (word : List Char) (part : α) : Prop :=
  ∀ rest, Stops rest → part? (word ++ rest) = some (part, rest)

theorem skipGap_opens {word : List Char} (h : ∃ o, Opens word o) : skipGap word = word := by
  obtain ⟨o, c, rest, rfl, hc⟩ := h
  have hgap : isGap c = false := by
    by_contra hgap
    simp only [isGap, Bool.not_eq_false, Bool.or_eq_true, beq_iff_eq] at hgap
    obtain rfl | rfl := hgap <;> cases hc
  simp [skipGap, hgap]

theorem skipGap_blank (cs : List Char) : skipGap (' ' :: cs) = skipGap cs := rfl

theorem readParts?_blank (cs : List Char) :
    readParts? close part? fuel (' ' :: cs) = readParts? close part? fuel cs := by
  cases fuel with
  | zero => rfl
  | succ fuel => rw [readParts?, readParts?, skipGap_blank]

/-- **Parts are read one after the other** up to the bracket behind them. The induction is on the
parts; what is left behind a comma is again parts, with a blank in front. -/
theorem readParts?_between (hclose : close = ']' ∨ close = '\x7d')
    (hopens : ∀ word ∈ words, ∃ o, Opens word o) (h : List.Forall₂ (Reads part?) words parts)
    (hfuel : words.length < fuel) (rest : List Char) :
    readParts? close part? fuel (between [',', ' '] words ++ close :: rest) =
      some (parts, rest) := by
  have hskip : skipGap (close :: rest) = close :: rest := by
    obtain rfl | rfl := hclose <;> rfl
  have hcomma : ',' ≠ close := by obtain rfl | rfl := hclose <;> decide
  have hopening : opening? close = none := by obtain rfl | rfl := hclose <;> decide
  have hstop : isWordChar close = false := by obtain rfl | rfl := hclose <;> decide
  induction h generalizing fuel with
  | nil =>
    cases fuel with
    | zero => cases hfuel
    | succ fuel =>
      rw [between, List.nil_append, readParts?, hskip]
      exact if_pos rfl
  | @cons word part words parts hpart hparts ih =>
    cases fuel with
    | zero => cases hfuel
    | succ fuel =>
      obtain ⟨o, c, tail, rfl, hc⟩ := hopens word List.mem_cons_self
      have hne : c ≠ close := by
        rintro rfl
        rw [hopening] at hc
        cases hc
      have hrest := ih (fun word hword => hopens word (List.mem_cons_of_mem _ hword))
        (Nat.lt_of_succ_lt_succ hfuel)
      have hstops : Stops (words.flatMap ([',', ' '] ++ ·) ++ close :: rest) := by
        cases words with
        | nil => exact stops_cons hstop
        | cons _ _ => exact stops_cons (by decide)
      have hread := hpart _ hstops
      rw [List.cons_append] at hread
      rw [between, List.append_assoc, readParts?, skipGap_opens ⟨o, c, _, List.cons_append, hc⟩,
        List.cons_append]
      simp only [if_neg hne, hread, Option.bind_eq_bind, Option.bind_some]
      cases hparts with
      | nil =>
        rw [List.flatMap_nil, List.nil_append, hskip]
        exact if_pos rfl
      | @cons next part' words parts' _ _ =>
        -- what is left begins with a comma, a blank and the next part
        have hcommas : (next :: words).flatMap ([',', ' '] ++ ·) ++ close :: rest =
            ',' :: ' ' :: (between [',', ' '] (next :: words) ++ close :: rest) := by
          simp [between]
        rw [hcommas]
        show (if ',' = close then _ else if ',' = ',' then _ else none) = _
        rw [if_neg hcomma, if_pos rfl, readParts?_blank, hrest]
        rfl

end Parts

end Bindery.Source
