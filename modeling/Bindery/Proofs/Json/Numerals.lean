import Mathlib.Data.List.Basic
import Bindery.Json.Numeral
import Bindery.Proofs.Json.Numbers

/-! Every number text is a numeral.

A magnitude is digits of which the first is no zero unless it stands alone, a point with digits
behind it or none, and an exponent or none; it is read to its end, with a sign or without
(`IsMagnitude.isNumeral`). The digits of a whole number are of this kind (`leads_toDigits`), and so
are the shortest digits of a floating-point number, however they are laid out. So the text of each
number is one numeral (`Number.isNumeral_text`). -/
namespace Bindery

namespace Json

/-- The characters are a numeral and nothing else. -/
def IsNumeral (cs : List Char) : Prop := ∃ l, Numeral.read? cs = some (l, [])

/-! ### Runs of digits -/

/-- One digit or more, and nothing else. -/
structure Digital (cs : List Char) : Prop where
  ne_nil : cs ≠ []
  digits : ∀ c ∈ cs, isDigit c = true

/-- Digits that may stand in front: a zero at their front stands alone. -/
structure Leads (cs : List Char) : Prop extends Digital cs where
  alone : cs.head? = some '0' → cs.length = 1

/-- What may follow digits that are read: no other digit. -/
def EndsDigits (cs : List Char) : Prop := ∀ c ∈ cs.head?, isDigit c = false

section Digits
variable {cs rest : List Char}

theorem readDigits_append (h : ∀ c ∈ cs, isDigit c = true) (hrest : EndsDigits rest) :
    readDigits (cs ++ rest) = (cs.map fun c => c.toNat - '0'.toNat, rest) := by
  have htake : rest.takeWhile isDigit = [] ∧ rest.dropWhile isDigit = rest := by
    cases rest with
    | nil => exact ⟨rfl, rfl⟩
    | cons c rest =>
      have hc : isDigit c = false := hrest c rfl
      simp [hc]
  rw [readDigits, List.takeWhile_append_of_pos h, List.dropWhile_append_of_pos h, htake.1,
    htake.2, List.append_nil]

theorem isDigit_eq (c : Char) : isDigit c = c.isDigit := rfl

/-- A digit is a zero only by its value. -/
theorem eq_zero_of_digit {c : Char} (h : isDigit c = true) (hzero : c.toNat - '0'.toNat = 0) :
    c = '0' := by
  simp only [isDigit, Bool.and_eq_true, decide_eq_true_eq] at h
  have hle : '0'.toNat ≤ c.toNat := h.1
  exact Char.toNat_inj.1 (by omega)

end Digits

/-! ### Reading the parts of a numeral -/

namespace Numeral
variable {cs rest : List Char}

theorem readFraction?_none (h : rest.head? ≠ some '.') : readFraction? rest = some ([], rest) := by
  rw [readFraction?.eq_def]
  split
  · exact absurd rfl h
  · rfl

theorem readFraction?_digits (h : Digital cs) (hrest : EndsDigits rest) :
    ∃ digits, readFraction? ('.' :: (cs ++ rest)) = some (digits, rest) := by
  rw [readFraction?, readDigits_append h.digits hrest]
  cases cs with
  | nil => exact absurd rfl h.ne_nil
  | cons c cs => exact ⟨_, rfl⟩

theorem readExponent?_digits (h : Digital cs) {sign : Char} (hsign : sign = '+' ∨ sign = '-') :
    ∃ exponent, readExponent? ('e' :: sign :: cs) = some (exponent, []) := by
  have hdigits : ∀ negative, ∃ exponent, readExponentDigits? negative cs = some (exponent, []) := by
    intro negative
    have hread := readDigits_append h.digits (nofun : EndsDigits [])
    rw [List.append_nil] at hread
    rw [readExponentDigits?, hread]
    cases cs with
    | nil => exact absurd rfl h.ne_nil
    | cons c cs => exact ⟨_, rfl⟩
  obtain rfl | rfl := hsign
  · exact hdigits false
  · exact hdigits true

end Numeral

/-- A fraction as it is written: a point and digits, or nothing. -/
def IsFraction (cs : List Char) : Prop := cs = [] ∨ ∃ digits, Digital digits ∧ cs = '.' :: digits

/-- An exponent as it is written: an `e`, a sign and digits, or nothing. -/
def IsExponent (cs : List Char) : Prop :=
  cs = [] ∨ ∃ sign digits, (sign = '+' ∨ sign = '-') ∧ Digital digits ∧ cs = 'e' :: sign :: digits

/-- A number without its sign as it is written. -/
def IsMagnitude (cs : List Char) : Prop :=
  ∃ whole fraction exponent, Leads whole ∧ IsFraction fraction ∧ IsExponent exponent ∧
    cs = whole ++ (fraction ++ exponent)

section Parts
variable {whole fraction exponent : List Char}

theorem IsExponent.endsDigits (h : IsExponent exponent) : EndsDigits exponent := by
  obtain rfl | ⟨sign, digits, _, _, rfl⟩ := h
  · exact nofun
  · intro c hc
    obtain rfl := Option.some.inj hc
    decide

theorem IsFraction.endsDigits_append (h : IsFraction fraction) (hexp : IsExponent exponent) :
    EndsDigits (fraction ++ exponent) := by
  obtain rfl | ⟨digits, _, rfl⟩ := h
  · exact hexp.endsDigits
  · intro c hc
    obtain rfl := Option.some.inj hc
    decide

theorem IsFraction.read (h : IsFraction fraction) (hexp : IsExponent exponent) :
    ∃ digits, Numeral.readFraction? (fraction ++ exponent) = some (digits, exponent) := by
  obtain rfl | ⟨digits, hdigits, rfl⟩ := h
  · refine ⟨[], Numeral.readFraction?_none ?_⟩
    obtain rfl | ⟨sign, digits, _, _, rfl⟩ := hexp
    · exact nofun
    · exact fun he => absurd (Option.some.inj he) (by decide)
  · exact Numeral.readFraction?_digits hdigits hexp.endsDigits

theorem IsExponent.read (h : IsExponent exponent) :
    ∃ e, Numeral.readExponent? exponent = some (e, []) := by
  obtain rfl | ⟨sign, digits, hsign, hdigits, rfl⟩ := h
  · exact ⟨none, rfl⟩
  · exact Numeral.readExponent?_digits hdigits hsign

/-- Digits, a fraction and an exponent are read to their end. -/
theorem readUnsigned?_of_parts (hwhole : Leads whole) (hfraction : IsFraction fraction)
    (hexponent : IsExponent exponent) (negative : Bool) :
    ∃ l, Numeral.readUnsigned? negative (whole ++ (fraction ++ exponent)) = some (l, []) := by
  obtain ⟨f, hf⟩ := hfraction.read hexponent
  obtain ⟨e, he⟩ := hexponent.read
  rw [Numeral.readUnsigned?,
    readDigits_append hwhole.digits (hfraction.endsDigits_append hexponent)]
  split
  · next hnone => exact absurd (List.map_eq_nil_iff.1 (Prod.mk.inj hnone).1) hwhole.ne_nil
  · next next more _ hzero =>
    -- A zero with another digit behind it does not lead.
    obtain ⟨hdigits, _⟩ := Prod.mk.inj hzero
    obtain ⟨c, rest, rfl, hc, hrest⟩ := List.map_eq_cons_iff.1 hdigits
    have hzero : c = '0' := eq_zero_of_digit (hwhole.digits c List.mem_cons_self) hc
    have hlength := hwhole.alone (by rw [hzero, List.head?_cons])
    have hmore := congrArg List.length hrest
    simp at hlength hmore
    simp [hlength] at hmore
  · next hsome =>
    obtain ⟨_, rfl⟩ := Prod.mk.inj hsome
    rw [hf]
    simp only [Option.bind_eq_bind, Option.bind_some, he]
    exact ⟨_, rfl⟩

/-- **A magnitude is a numeral**, with a sign in front or without. -/
theorem IsMagnitude.isNumeral {cs : List Char} (h : IsMagnitude cs) :
    IsNumeral cs ∧ IsNumeral ('-' :: cs) := by
  obtain ⟨whole, fraction, exponent, hwhole, hfraction, hexponent, rfl⟩ := h
  constructor
  · obtain ⟨l, hl⟩ := readUnsigned?_of_parts hwhole hfraction hexponent false
    refine ⟨l, ?_⟩
    rw [Numeral.read?.eq_def]
    split
    · next rest hminus =>
      cases whole with
      | nil => exact absurd rfl hwhole.ne_nil
      | cons c whole =>
        have hc := hwhole.digits c List.mem_cons_self
        rw [(List.cons.inj hminus).1] at hc
        exact absurd hc (by decide)
    · exact hl
  · exact readUnsigned?_of_parts hwhole hfraction hexponent true

end Parts

/-! ### Whole numbers -/

/-- The digits of a number other than zero do not begin with a zero. -/
theorem head?_toDigits {n : Nat} (hn : 0 < n) : (Nat.toDigits 10 n).head? ≠ some '0' := by
  induction n using Nat.strongRecOn with
  | ind n ih =>
    by_cases hsmall : n < 10
    · rw [Nat.toDigits_of_lt_base hsmall, List.head?_cons]
      have hall : ∀ d : Fin 10, 0 < d.val → some d.val.digitChar ≠ some '0' := by decide
      exact hall ⟨n, hsmall⟩ hn
    · rw [Nat.toDigits_of_base_le (by decide) (by omega),
        List.head?_append_of_ne_nil _ Nat.toDigits_ne_nil]
      exact ih (n / 10) (by omega) (by omega)

theorem leads_toDigits (n : Nat) : Leads (Nat.toDigits 10 n) where
  ne_nil := Nat.toDigits_ne_nil
  digits c hc := by
    rw [isDigit_eq]
    exact Nat.isDigit_of_mem_toDigits (by decide) (by decide) hc
  alone hzero := by
    rcases Nat.eq_zero_or_pos n with rfl | hn
    · rfl
    · exact absurd hzero (head?_toDigits hn)

theorem leads_zero : Leads ['0'] where
  ne_nil := List.cons_ne_nil _ _
  digits := List.forall_mem_singleton.2 rfl
  alone _ := rfl

theorem isMagnitude_toDigits (n : Nat) : IsMagnitude (Nat.toDigits 10 n) :=
  ⟨_, [], [], leads_toDigits n, .inl rfl, .inl rfl, by simp⟩

theorem isNumeral_toString (i : Int) : IsNumeral (toString i).toList := by
  show IsNumeral i.repr.toList
  unfold Int.repr
  cases i with
  | ofNat n =>
    show IsNumeral n.repr.toList
    rw [Nat.toList_repr]
    exact (isMagnitude_toDigits n).isNumeral.1
  | negSucc n =>
    show IsNumeral ("-" ++ (n + 1).repr).toList
    rw [String.toList_append, Nat.toList_repr]
    exact (isMagnitude_toDigits (n + 1)).isNumeral.2

end Json

/-! ### Floating-point numbers -/

namespace Decimal
open Json

/-- The digits of a decimal as they should be: the first is no zero, unless all are those of
zero. -/
structure Digits.Normal (d : Digits) : Prop where
  ne_nil : d.digits ≠ []
  le : ∀ k ∈ d.digits, k ≤ 9
  zero : d.digits.head? = some 0 → d = ⟨[0], 0⟩

theorem head?_digitsOf {n : Nat} (hn : 0 < n) : (digitsOf n).head? ≠ some 0 := by
  intro hzero
  rw [digitsOf, List.head?_map] at hzero
  obtain ⟨c, hc, hvalue⟩ := Option.map_eq_some_iff.1 hzero
  have hdigit := (leads_toDigits n).digits c (List.mem_of_head? hc)
  rw [eq_zero_of_digit hdigit hvalue] at hc
  exact head?_toDigits hn hc

/-- A digit other than zero keeps its place in front when the zeros at the end go. -/
theorem dropFinalZeros_cons {k : Nat} (hk : k ≠ 0) (digits : List Nat) :
    dropFinalZeros (k :: digits) = k :: dropFinalZeros digits := by
  unfold dropFinalZeros
  rw [List.reverse_cons, List.dropWhile_append]
  split
  · next hempty =>
    rw [List.isEmpty_iff.1 hempty]
    simp [hk]
  · simp

theorem Digits.normal_ofNat {n : Nat} (hn : 0 < n) (unit : Int) : (Digits.ofNat n unit).Normal := by
  obtain ⟨k, rest, hdigits⟩ : ∃ k rest, digitsOf n = k :: rest :=
    List.exists_cons_of_ne_nil (by simp [digitsOf, Nat.toDigits_ne_nil])
  have hk : k ≠ 0 := by
    rintro rfl
    exact head?_digitsOf hn (by rw [hdigits, List.head?_cons])
  have hofNat : (Digits.ofNat n unit).digits = k :: dropFinalZeros rest := by
    show dropFinalZeros (digitsOf n) = _
    rw [hdigits, dropFinalZeros_cons hk]
  refine ⟨?_, fun d hd => le_of_mem_ofNat hd, ?_⟩
  · rw [hofNat]
    exact List.cons_ne_nil _ _
  · rw [hofNat, List.head?_cons]
    exact fun h => absurd (Option.some.inj h) hk

theorem Bracket.normal_of_onGrid? {b : Bracket} {lead : Int} {count : Nat} {d : Digits}
    (h : b.onGrid? lead count = some d) : d.Normal := by
  unfold Bracket.onGrid? at h
  obtain ⟨k, hk, rfl⟩ := Option.map_eq_some_iff.1 h
  have hne := List.find?_some hk
  simp only [Bool.and_eq_true, bne_iff_ne] at hne
  exact Digits.normal_ofNat (Nat.pos_of_ne_zero hne.1) _

theorem normal_shortest (x : Binary64) : (shortest x).Normal := by
  simp only [shortest]
  cases hgrid : (List.range 17).findSome? fun i => (Bracket.around x).onGrid?
      (leadingExponent (Bracket.around x).value (Bracket.around x).den) (i + 1) with
  | none => exact ⟨List.cons_ne_nil _ _, by decide, fun _ => rfl⟩
  | some d =>
    obtain ⟨i, _, hi⟩ := List.exists_of_findSome?_eq_some hgrid
    exact Bracket.normal_of_onGrid? hi

section Text
variable {digits : List Nat} {d : Digits}

theorem toList_digitText (digits : List Nat) :
    (digitText digits).toList = digits.map fun k => Char.ofNat ('0'.toNat + k) :=
  String.toList_ofList

theorem digital_digitText (hne : digits ≠ []) (h : ∀ k ∈ digits, k ≤ 9) :
    Digital (digitText digits).toList where
  ne_nil := digitText_ne_nil hne
  digits c hc := by
    rw [toList_digitText] at hc
    obtain ⟨k, hk, rfl⟩ := List.mem_map.1 hc
    have hall : ∀ k : Fin 10, isDigit (Char.ofNat ('0'.toNat + k)) = true := by decide
    exact hall ⟨k, Nat.lt_succ_of_le (h k hk)⟩

/-- Digits whose first one is no zero lead, and so does a digit alone. -/
theorem leads_digitText (hne : digits ≠ []) (h : ∀ k ∈ digits, k ≤ 9)
    (hzero : digits.head? = some 0 → digits.length = 1) : Leads (digitText digits).toList where
  toDigital := digital_digitText hne h
  alone := by
    rw [toList_digitText, List.length_map, List.head?_map]
    intro hhead
    obtain ⟨k, hk, hchar⟩ := Option.map_eq_some_iff.1 hhead
    have hall : ∀ k : Fin 10, Char.ofNat ('0'.toNat + k) = '0' → k.val = 0 := by decide
    obtain rfl : k = 0 := hall ⟨k, Nat.lt_succ_of_le (h k (List.mem_of_head? hk))⟩ hchar
    exact hzero hk

theorem isFraction_point (hne : digits ≠ []) (h : ∀ k ∈ digits, k ≤ 9) :
    IsFraction ("." ++ digitText digits).toList := by
  rw [String.toList_append]
  exact .inr ⟨_, digital_digitText hne h, rfl⟩

theorem isMagnitude_positional (style : Style) (h : d.Normal) :
    IsMagnitude (positional style d).toList := by
  have hpoint : IsFraction (if style.pointZero then ".0" else "").toList := by
    split
    · exact .inr ⟨['0'], leads_zero.toDigital, rfl⟩
    · exact .inl rfl
  unfold positional
  by_cases hsmall : d.exponent < 0
  · rw [if_pos hsmall]
    generalize (-d.exponent).toNat - 1 = zeros
    have hfraction : IsFraction ("." ++ digitText (List.replicate zeros 0 ++ d.digits)).toList :=
      isFraction_point (List.append_ne_nil_of_right_ne_nil _ h.ne_nil)
        fun k hk => (List.mem_append.1 hk).elim (numeric_zeros _ k) (h.le k)
    exact ⟨['0'], _, [], leads_zero, hfraction, .inl rfl, by simp⟩
  · rw [if_neg hsmall]
    dsimp only
    by_cases hlength : d.digits.length ≤ d.exponent.toNat + 1
    · rw [if_pos hlength, String.toList_append]
      have hzeros : ∀ k ∈ d.digits ++ List.replicate (d.exponent.toNat + 1 - d.digits.length) 0,
          k ≤ 9 := fun k hk => (List.mem_append.1 hk).elim (h.le k) (numeric_zeros _ k)
      refine ⟨_, _, [], leads_digitText (List.append_ne_nil_of_left_ne_nil h.ne_nil _) hzeros
        fun hzero => ?_, hpoint, .inl rfl, by rw [List.append_nil]⟩
      rw [List.head?_append_of_ne_nil _ h.ne_nil] at hzero
      rw [h.zero hzero]
      rfl
    · rw [if_neg hlength]
      have htake : d.digits.take (d.exponent.toNat + 1) ≠ [] := by
        rw [Ne, List.take_eq_nil_iff]
        exact fun hnil => hnil.elim (Nat.succ_ne_zero _) h.ne_nil
      have hdrop : d.digits.drop (d.exponent.toNat + 1) ≠ [] := by
        rwa [Ne, List.drop_eq_nil_iff]
      refine ⟨_, _, [], leads_digitText htake (fun k hk => h.le k (List.mem_of_mem_take hk))
        fun hzero => ?_, isFraction_point hdrop fun k hk => h.le k (List.mem_of_mem_drop hk),
        .inl rfl, by simp⟩
      -- Zero has one digit, which does not reach behind the point.
      rw [List.head?_take, if_neg (Nat.succ_ne_zero _)] at hzero
      rw [h.zero hzero] at hlength
      exact absurd (Nat.le_refl 1) hlength

theorem isMagnitude_scientific (h : d.Normal) : IsMagnitude (scientific d).toList := by
  have htake : d.digits.take 1 ≠ [] := by
    rw [Ne, List.take_eq_nil_iff]
    exact fun hnil => hnil.elim Nat.one_ne_zero h.ne_nil
  have hone : (d.digits.take 1).length = 1 := by
    have hpos := List.length_pos_iff.2 h.ne_nil
    rw [List.length_take]
    omega
  have hfraction : IsFraction
      (if d.digits.length ≤ 1 then "" else "." ++ digitText (d.digits.drop 1)).toList := by
    split
    · exact .inl rfl
    · next hmore =>
      exact isFraction_point (by rwa [Ne, List.drop_eq_nil_iff])
        fun k hk => h.le k (List.mem_of_mem_drop hk)
  have hexponent : IsExponent
      ("e" ++ (if d.exponent < 0 then "-" else "+") ++ toString d.exponent.natAbs).toList := by
    refine .inr ⟨if d.exponent < 0 then '-' else '+', _, ?_,
      (leads_toDigits d.exponent.natAbs).toDigital, ?_⟩
    · split <;> simp
    · show (_ ++ d.exponent.natAbs.repr).toList = _
      rw [String.toList_append, Nat.toList_repr]
      split <;> rfl
  refine ⟨_, _, _, leads_digitText htake (fun k hk => h.le k (List.mem_of_mem_take hk))
    (fun _ => hone), hfraction, hexponent, ?_⟩
  simp [scientific]

theorem isNumeral_write (style : Style) (x : Binary64) : IsNumeral (write style x).toList := by
  have hsign : ∀ {text : String} (negative : Bool), IsMagnitude text.toList →
      IsNumeral ((if negative then "-" else "") ++ text).toList := by
    intro text negative h
    cases negative with
    | false => simpa using h.isNumeral.1
    | true => simpa using h.isNumeral.2
  unfold write
  split
  · apply hsign
    split
    · have hpoint : IsFraction ['.', '0'] := .inr ⟨['0'], leads_zero.toDigital, rfl⟩
      exact ⟨['0'], ['.', '0'], [], leads_zero, hpoint, .inl rfl, rfl⟩
    · exact ⟨['0'], [], [], leads_zero, .inl rfl, .inl rfl, rfl⟩
  · apply hsign
    split
    · exact isMagnitude_positional style (normal_shortest x)
    · exact isMagnitude_scientific (normal_shortest x)

end Text

end Decimal

namespace Json

/-- **The text of a number is a numeral**, read to its end. -/
theorem Number.isNumeral_text (n : Number) : IsNumeral n.text.toList := by
  cases n with
  | integer i => exact isNumeral_toString i
  | double x => exact Decimal.isNumeral_write _ x

end Json

end Bindery
