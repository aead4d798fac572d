import Bindery.Json.Canonical
import Bindery.Json.Reader
import Bindery.Source.Literal

/-! Texts that are coded character by character.

A code can be taken off the front of what follows it (`PrefixCode`), so a text that is coded
character by character is known from its code, up to where no code goes on
(`PrefixCode.flatMap_append`). Three codes of texts are of this kind: the units by which keys are
sorted (`units16_injective`), strings in JSON, which are read back as what they were
(`readPieces?_flatMap_escape`), and texts in quotes (`quotedChars_cancel`). -/
namespace Bindery

/-- Every code is a word that tells what it stands for and where it ends. -/
structure PrefixCode {α β : Type} (code : α → List β) : Prop where
  ne_nil : ∀ a, code a ≠ []
  cancel : ∀ {a b : α} {xs ys : List β}, code a ++ xs = code b ++ ys → a = b ∧ xs = ys

/-- A list coded one by one, with something behind it that is no code, can be taken off. -/
theorem PrefixCode.flatMap_append {α β : Type} {code : α → List β} (h : PrefixCode code)
    {as bs : List α} {xs ys : List β} (hxs : ∀ a zs, xs ≠ code a ++ zs)
    (hys : ∀ a zs, ys ≠ code a ++ zs) (heq : as.flatMap code ++ xs = bs.flatMap code ++ ys) :
    as = bs ∧ xs = ys := by
  induction as generalizing bs with
  | nil =>
    cases bs with
    | nil => exact ⟨rfl, heq⟩
    | cons b bs =>
      rw [List.flatMap_cons, List.append_assoc] at heq
      exact absurd heq (hxs b _)
  | cons a as ih =>
    cases bs with
    | nil =>
      rw [List.flatMap_cons, List.append_assoc] at heq
      exact absurd heq.symm (hys a _)
    | cons b bs =>
      rw [List.flatMap_cons, List.flatMap_cons, List.append_assoc, List.append_assoc] at heq
      obtain ⟨rfl, hrest⟩ := h.cancel heq
      obtain ⟨rfl, rfl⟩ := ih hrest
      exact ⟨rfl, rfl⟩

theorem PrefixCode.flatMap_injective {α β : Type} {code : α → List β} (h : PrefixCode code)
    {as bs : List α} (heq : as.flatMap code = bs.flatMap code) : as = bs := by
  have hnil : ∀ a zs, [] ≠ code a ++ zs := fun a zs hz =>
    h.ne_nil a (List.append_eq_nil_iff.1 hz.symm).1
  exact (h.flatMap_append hnil hnil (congrArg (· ++ []) heq)).1

/-! ### The units of keys -/

namespace Json

def unitsOf (c : Char) : List Nat :=
  if c.toNat < 0x10000 then [c.toNat]
  else [0xD800 + (c.toNat - 0x10000) / 0x400, 0xDC00 + (c.toNat - 0x10000) % 0x400]

/-- No character stands where halves of surrogate pairs do. -/
theorem toNat_not_half (c : Char) : c.toNat < 0xD800 ∨ 0xDFFF < c.toNat ∧ c.toNat < 0x110000 :=
  c.valid

theorem prefixCode_unitsOf : PrefixCode unitsOf where
  ne_nil c := by
    unfold unitsOf
    split <;> simp
  cancel := by
    intro c d xs ys heq
    have hc := toNat_not_half c
    have hd := toNat_not_half d
    unfold unitsOf at heq
    split at heq
    · split at heq
      · rw [List.cons_append, List.cons_append, List.cons.injEq] at heq
        exact ⟨Char.toNat_inj.1 heq.1, heq.2⟩
      · simp only [List.cons_append, List.cons.injEq] at heq
        omega
    · split at heq
      · simp only [List.cons_append, List.cons.injEq] at heq
        omega
      · simp only [List.cons_append, List.nil_append, List.cons.injEq] at heq
        exact ⟨Char.toNat_inj.1 (by omega), heq.2.2⟩

theorem units16_injective {s t : String} (h : units16 s = units16 t) : s = t :=
  String.toList_inj.1 (prefixCode_unitsOf.flatMap_injective h)

/-! ### Strings in JSON -/

/-- How an escaped character is read. -/
def piece (c : Char) : Piece :=
  if c.toNat < 0x20 ∧ c ∉ ['\x08', '\x0c', '\n', '\r', '\t'] then .unit c.toNat else .char c

theorem piece_injective {c d : Char} (h : piece c = piece d) : c = d := by
  unfold piece at h
  split at h
  · split at h
    · exact Char.toNat_inj.1 (Piece.unit.inj h)
    · cases h
  · split at h
    · cases h
    · exact Piece.char.inj h

theorem unit?_hexDigit {n : Nat} (h : n < 0x20) :
    unit? '0' '0' (hexDigit (n / 16)) (hexDigit (n % 16)) = some n := by
  have hall : ∀ n : Fin 0x20,
      unit? '0' '0' (hexDigit (n.val / 16)) (hexDigit (n.val % 16)) = some n.val := by decide
  exact hall ⟨n, h⟩

theorem readPieces?_escape (c : Char) (rest : List Char) :
    readPieces? (escape c ++ rest) =
      (readPieces? rest).map fun p => (piece c :: p.1, p.2) := by
  by_cases hshort : c ∈ ['\x22', '\\', '\x08', '\x0c', '\n', '\r', '\t']
  · simp only [List.mem_cons, List.not_mem_nil, or_false] at hshort
    obtain rfl | rfl | rfl | rfl | rfl | rfl | rfl := hshort <;>
      simp [escape, readPieces?, shortEscape?, piece] <;> cases readPieces? rest <;> rfl
  · simp only [List.mem_cons, List.not_mem_nil, or_false, not_or] at hshort
    obtain ⟨hquote, hslash, hb, hf, hn, hr, ht⟩ := hshort
    by_cases hcontrol : c.toNat < 0x20
    · have hescape : escape c =
          ['\\', 'u', '0', '0', hexDigit (c.toNat / 16), hexDigit (c.toNat % 16)] := by
        simp [escape, hquote, hslash, hb, hf, hn, hr, ht, hcontrol]
      have hpiece : piece c = .unit c.toNat := by
        simp [piece, hb, hf, hn, hr, ht, hcontrol]
      rw [hescape, hpiece]
      simp only [List.cons_append, List.nil_append, readPieces?, unit?_hexDigit hcontrol]
      cases readPieces? rest <;> rfl
    · have hescape : escape c = [c] := by
        simp [escape, hquote, hslash, hb, hf, hn, hr, ht, hcontrol]
      have hpiece : piece c = .char c := by simp [piece, hcontrol]
      rw [hescape, hpiece, List.cons_append, List.nil_append, readPieces?.eq_def]
      simp [hslash, hcontrol]
      cases readPieces? rest <;> rfl

theorem readPieces?_flatMap_escape (cs rest : List Char) :
    readPieces? (cs.flatMap escape ++ '\x22' :: rest) = some (cs.map piece, rest) := by
  induction cs with
  | nil => rfl
  | cons c cs ih =>
    rw [List.flatMap_cons, List.append_assoc, readPieces?_escape, ih]
    rfl

theorem stringChars_cancel {s t : String} {xs ys : List Char}
    (h : stringChars s ++ xs = stringChars t ++ ys) : s = t ∧ xs = ys := by
  simp only [stringChars, List.cons_append, List.append_assoc, List.cons.injEq, true_and,
    List.nil_append] at h
  have hread := congrArg readPieces? h
  rw [readPieces?_flatMap_escape, readPieces?_flatMap_escape, Option.some.injEq,
    Prod.mk.injEq] at hread
  have hpieces := (List.map_inj_right fun _ _ => piece_injective).1 hread.1
  exact ⟨String.toList_inj.1 hpieces, hread.2⟩

end Json

/-! ### Texts in quotes -/

namespace Source

/-- A character is escaped or stands for itself. -/
theorem escapeChar_cases (c : Char) :
    (c = '\\' ∧ escapeChar c = ['\\', '\\']) ∨ (c = '\x27' ∧ escapeChar c = ['\\', '\x27']) ∨
      (c = '\n' ∧ escapeChar c = ['\\', 'n']) ∨
      (c ≠ '\\' ∧ c ≠ '\x27' ∧ escapeChar c = [c]) := by
  unfold escapeChar
  by_cases hslash : c = '\\'
  · simp [hslash]
  · by_cases hquote : c = '\x27'
    · simp [hquote]
    · by_cases hline : c = '\n'
      · simp [hline]
      · simp [hslash, hquote, hline]

theorem prefixCode_escapeChar : PrefixCode escapeChar where
  ne_nil c := by
    obtain ⟨_, h⟩ | ⟨_, h⟩ | ⟨_, h⟩ | ⟨_, _, h⟩ := escapeChar_cases c <;> simp [h]
  cancel := by
    intro c d xs ys heq
    obtain ⟨hc, h⟩ | ⟨hc, h⟩ | ⟨hc, h⟩ | ⟨hc, _, h⟩ := escapeChar_cases c <;>
      obtain ⟨hd, h'⟩ | ⟨hd, h'⟩ | ⟨hd, h'⟩ | ⟨hd, _, h'⟩ := escapeChar_cases d <;>
        grind

def quotedChars (text : String) : List Char :=
  '\x27' :: (text.toList.flatMap escapeChar ++ ['\x27'])

theorem toList_quoted (text : String) : (quoted text).toList = quotedChars text :=
  String.toList_ofList

theorem quotedChars_cancel {s t : String} {xs ys : List Char}
    (h : quotedChars s ++ xs = quotedChars t ++ ys) : s = t ∧ xs = ys := by
  simp only [quotedChars, List.cons_append, List.append_assoc, List.cons.injEq, true_and,
    List.nil_append] at h
  have hquote : ∀ zs c ws, '\x27' :: zs ≠ escapeChar c ++ ws := by
    intro zs c ws
    obtain ⟨_, h⟩ | ⟨_, h⟩ | ⟨_, h⟩ | ⟨_, hne, h⟩ := escapeChar_cases c
    · simp [h]
    · simp [h]
    · simp [h]
    · simp [h, Ne.symm hne]
  obtain ⟨hs, hrest⟩ := prefixCode_escapeChar.flatMap_append (hquote xs) (hquote ys) h
  exact ⟨String.toList_inj.1 hs, (List.cons.inj hrest).2⟩

end Source

end Bindery
