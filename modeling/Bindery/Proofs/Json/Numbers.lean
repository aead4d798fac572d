import Bindery.Json.Canonical

/-! What numbers are written with.

However a number is written, its text is not empty (`Decimal.write_ne_nil`) and has no characters
but digits, signs, points and the `e` of an exponent (`Decimal.numeric_write`). No word of a
language for truth values or for nothing can be taken for one. -/
namespace Bindery

/-- The characters of number texts. -/
def isNumeric (c : Char) : Bool := c.isDigit || c == '-' || c == '+' || c == '.' || c == 'e'

/-- A text without other characters than those of numbers. -/
def Numeric (text : String) : Prop := text.toList.all isNumeric = true

instance (text : String) : Decidable (Numeric text) :=
  inferInstanceAs (Decidable (text.toList.all isNumeric = true))

theorem numeric_iff {text : String} : Numeric text ↔ ∀ c ∈ text.toList, isNumeric c = true :=
  List.all_eq_true

theorem Numeric.append {a b : String} (ha : Numeric a) (hb : Numeric b) : Numeric (a ++ b) := by
  rw [numeric_iff] at ha hb ⊢
  intro c hc
  rw [String.toList_append, List.mem_append] at hc
  exact hc.elim (ha c) (hb c)

/-- A word with another character is no such text. -/
theorem Numeric.toList_ne {text : String} {word : List Char} (h : Numeric text)
    (hword : word.all isNumeric = false) : text.toList ≠ word := by
  rintro rfl
  rw [Numeric, hword] at h
  cases h

theorem numeric_repr (n : Nat) : Numeric n.repr := by
  refine numeric_iff.2 fun c hc => ?_
  rw [Nat.toList_repr] at hc
  have hdigit := Nat.isDigit_of_mem_toDigits (by decide) (by decide) hc
  simp [isNumeric, hdigit]

theorem numeric_toString (i : Int) : Numeric (toString i) := by
  show Numeric i.repr
  unfold Int.repr
  cases i with
  | ofNat m => exact numeric_repr m
  | negSucc m => exact Numeric.append (by decide) (numeric_repr _)

theorem toString_ne_nil (i : Int) : (toString i).toList ≠ [] := by
  show i.repr.toList ≠ []
  unfold Int.repr
  cases i with
  | ofNat m => simp [Nat.toDigits_ne_nil]
  | negSucc m => simp

namespace Decimal

/-! ### Digits -/

theorem le_of_mem_digitsOf {n d : Nat} (h : d ∈ digitsOf n) : d ≤ 9 := by
  obtain ⟨c, hc, rfl⟩ := List.mem_map.1 h
  have hdigit := Nat.isDigit_of_mem_toDigits (by decide) (by decide) hc
  simp only [Char.isDigit, Bool.and_eq_true, decide_eq_true_eq] at hdigit
  have hle : c.toNat ≤ '9'.toNat := hdigit.2
  have hnine : '9'.toNat = '0'.toNat + 9 := by decide
  omega

theorem le_of_mem_ofNat {n d : Nat} {unit : Int} (h : d ∈ (Digits.ofNat n unit).digits) :
    d ≤ 9 := by
  have hd : d ∈ dropFinalZeros (digitsOf n) := h
  unfold dropFinalZeros at hd
  rw [List.mem_reverse] at hd
  exact le_of_mem_digitsOf (List.mem_reverse.1 ((List.dropWhile_sublist _).mem hd))

theorem Bracket.le_of_mem_onGrid? {b : Bracket} {lead : Int} {count d : Nat} {ds : Digits}
    (h : b.onGrid? lead count = some ds) (hd : d ∈ ds.digits) : d ≤ 9 := by
  unfold Bracket.onGrid? at h
  obtain ⟨k, _, rfl⟩ := Option.map_eq_some_iff.1 h
  exact le_of_mem_ofNat hd

theorem le_of_mem_shortest {x : Binary64} {d : Nat} (h : d ∈ (shortest x).digits) : d ≤ 9 := by
  simp only [shortest] at h
  cases hgrid : (List.range 17).findSome? fun i => (Bracket.around x).onGrid?
      (leadingExponent (Bracket.around x).value (Bracket.around x).den) (i + 1) with
  | none =>
    rw [hgrid, Option.getD_none] at h
    rw [List.mem_singleton.1 h]
    decide
  | some ds =>
    rw [hgrid, Option.getD_some] at h
    obtain ⟨i, _, hi⟩ := List.exists_of_findSome?_eq_some hgrid
    exact Bracket.le_of_mem_onGrid? hi h

/-! ### Texts -/

theorem numeric_digitText {digits : List Nat} (h : ∀ d ∈ digits, d ≤ 9) :
    Numeric (digitText digits) := by
  refine numeric_iff.2 fun c hc => ?_
  rw [digitText, String.toList_ofList] at hc
  obtain ⟨d, hd, rfl⟩ := List.mem_map.1 hc
  have hall : ∀ d : Fin 10, isNumeric (Char.ofNat ('0'.toNat + d)) = true := by decide
  exact hall ⟨d, Nat.lt_succ_of_le (h d hd)⟩

theorem digitText_ne_nil {digits : List Nat} (h : digits ≠ []) :
    (digitText digits).toList ≠ [] := by
  rw [digitText, String.toList_ofList]
  simpa using h

section Text
variable {style : Style} {d : Digits}

theorem numeric_zeros (n : Nat) : ∀ k ∈ List.replicate n 0, k ≤ 9 := by
  intro k hk
  rw [(List.mem_replicate.1 hk).2]
  decide

theorem numeric_positional (h : ∀ k ∈ d.digits, k ≤ 9) : Numeric (positional style d) := by
  have hwhole : Numeric (if style.pointZero then ".0" else "") := by split <;> decide
  unfold positional
  by_cases hsmall : d.exponent < 0
  · rw [if_pos hsmall]
    refine .append (by decide) (numeric_digitText fun k hk => ?_)
    exact (List.mem_append.1 hk).elim (numeric_zeros _ k) (h k)
  · rw [if_neg hsmall]
    dsimp only
    by_cases hlength : d.digits.length ≤ d.exponent.toNat + 1
    · rw [if_pos hlength]
      refine .append (numeric_digitText fun k hk => ?_) hwhole
      exact (List.mem_append.1 hk).elim (h k) (numeric_zeros _ k)
    · rw [if_neg hlength]
      refine .append (.append (numeric_digitText fun k hk => ?_) (by decide))
        (numeric_digitText fun k hk => ?_)
      · exact h k (List.mem_of_mem_take hk)
      · exact h k (List.mem_of_mem_drop hk)

theorem positional_ne_nil : (positional style d).toList ≠ [] := by
  unfold positional
  by_cases hsmall : d.exponent < 0
  · rw [if_pos hsmall]
    simp
  · rw [if_neg hsmall]
    dsimp only
    by_cases hlength : d.digits.length ≤ d.exponent.toNat + 1
    · rw [if_pos hlength, String.toList_append]
      refine List.append_ne_nil_of_left_ne_nil (digitText_ne_nil fun hnil => ?_) _
      have hnone := congrArg List.length hnil
      rw [List.length_append, List.length_replicate, List.length_nil] at hnone
      omega
    · rw [if_neg hlength]
      simp

theorem numeric_scientific (h : ∀ k ∈ d.digits, k ≤ 9) : Numeric (scientific d) := by
  unfold scientific
  refine .append (.append (.append (.append (numeric_digitText fun k hk => ?_) ?_) (by decide)) ?_)
    (numeric_repr _)
  · exact h k (List.mem_of_mem_take hk)
  · split
    · decide
    · exact .append (by decide) (numeric_digitText fun k hk => h k (List.mem_of_mem_drop hk))
  · split <;> decide

theorem scientific_ne_nil : (scientific d).toList ≠ [] := by
  simp [scientific]

end Text

/-- A number is written with the characters of numbers. -/
theorem numeric_write (style : Style) (x : Binary64) : Numeric (write style x) := by
  unfold write
  split
  · refine .append ?_ ?_
    · split <;> decide
    · split <;> decide
  · refine .append ?_ ?_
    · split <;> decide
    · split
      · exact numeric_positional fun k hk => le_of_mem_shortest hk
      · exact numeric_scientific fun k hk => le_of_mem_shortest hk

theorem write_ne_nil (style : Style) (x : Binary64) : (write style x).toList ≠ [] := by
  unfold write
  by_cases hzero : x.isZero
  · rw [if_pos hzero, String.toList_append]
    refine List.append_ne_nil_of_right_ne_nil _ ?_
    split <;> decide
  · rw [if_neg hzero, String.toList_append]
    refine List.append_ne_nil_of_right_ne_nil _ ?_
    split
    · exact positional_ne_nil
    · exact scientific_ne_nil

end Decimal

namespace Json.Number

theorem numeric_text (n : Number) : Numeric n.text := by
  cases n with
  | integer i => exact numeric_toString i
  | double x => exact Decimal.numeric_write _ x

theorem text_ne_nil (n : Number) : n.text.toList ≠ [] := by
  cases n with
  | integer i => exact toString_ne_nil i
  | double x => exact Decimal.write_ne_nil _ x

/-- A canonical text is the text of some number, whole or not. -/
theorem exists_of_canonical? {n : Number} {text : String} (h : n.canonical? = some text) :
    (∃ i : Int, text = toString i) ∨ ∃ x, text = Decimal.write canonicalStyle x := by
  cases n with
  | integer i =>
    rw [canonical?] at h
    split at h
    · exact .inl ⟨i, (Option.some.inj h).symm⟩
    · cases h
  | double x => exact .inr ⟨x, (Option.some.inj h).symm⟩

theorem numeric_canonical? {n : Number} {text : String} (h : n.canonical? = some text) :
    Numeric text := by
  cases exists_of_canonical? h with
  | inl hi =>
    obtain ⟨i, rfl⟩ := hi
    exact numeric_toString i
  | inr hx =>
    obtain ⟨x, rfl⟩ := hx
    exact Decimal.numeric_write _ x

theorem canonical?_ne_nil {n : Number} {text : String} (h : n.canonical? = some text) :
    text.toList ≠ [] := by
  cases exists_of_canonical? h with
  | inl hi =>
    obtain ⟨i, rfl⟩ := hi
    exact toString_ne_nil i
  | inr hx =>
    obtain ⟨x, rfl⟩ := hx
    exact Decimal.write_ne_nil _ x

end Json.Number

end Bindery
