import Mathlib.Tactic.ByContra
import Bindery.Text.SnakeCase

/-! Where the underscores of snake case go.

Two searches put them in, one behind the other. Each goes through a text from left to right, and
what belongs to a match is not searched again (`Replaced`), so the first one passes over a capital
that follows the last letter of a match. The second one finds it there, because that letter is a
small one; and it adds nothing where an underscore stands already. Both together put one underscore
into each place that calls for one (`partCase_partWords`), whatever the text (`snakeCase_exact`). -/
namespace Bindery.Text

/-! ### Places -/

/-- An underscore belongs between `x` and what follows: a capital, which follows a small letter or
a digit, or has a small letter behind it and does not begin a line. -/
def Boundary (x : Char) : List Char → Prop
  | [] => False
  | y :: after =>
    isCapital y ∧ ((x ≠ '\n' ∧ after.head?.any isSmall) ∨ isSmall x ∨ isDigit x)

instance (x : Char) : (after : List Char) → Decidable (Boundary x after)
  | [] => .isFalse id
  | _ :: _ => inferInstanceAs (Decidable (_ ∧ _))

/-- A text with one underscore in each such place. -/
def parted : List Char → List Char
  | [] => []
  | x :: rest => if Boundary x rest then x :: '_' :: parted rest else x :: parted rest

/-! ### Searches -/

/-- Each match is replaced, from left to right. Where a match begins, what `find` gives is put for
it, and the search goes on behind it; a character with which none begins stays. -/
inductive Replaced (find : List Char → Option (List Char × List Char)) :
    List Char → List Char → Prop where
  | nil : Replaced find [] []
  | found {cs put rest out : List Char} :
      find cs = some (put, rest) → Replaced find rest out → Replaced find cs (put ++ out)
  | kept {c : Char} {cs out : List Char} :
      find (c :: cs) = none → Replaced find cs out → Replaced find (c :: cs) (c :: out)

/-- The start of a word: a character that does not end a line, and a capital with all the small
letters behind it. An underscore is put between the two. -/
def wordMatch? : List Char → Option (List Char × List Char)
  | x :: y :: rest =>
    if x ≠ '\n' ∧ isCapital y ∧ rest.takeWhile isSmall ≠ [] then
      some (x :: '_' :: y :: rest.takeWhile isSmall, rest.dropWhile isSmall)
    else none
  | _ => none

/-- A small letter or a digit, and a capital. An underscore is put between the two. -/
def caseMatch? : List Char → Option (List Char × List Char)
  | x :: y :: rest =>
    if (isSmall x ∨ isDigit x) ∧ isCapital y then some ([x, '_', y], rest) else none
  | _ => none

section Searches
variable {find : List Char → Option (List Char × List Char)} {cs out out' : List Char}

/-- A search has one result, if there is no match in nothing. -/
theorem Replaced.unique (hnil : find [] = none) (h : Replaced find cs out)
    (h' : Replaced find cs out') : out = out' := by
  induction h generalizing out' with
  | nil =>
    cases h' with
    | nil => rfl
    | found hfind _ => simp [hnil] at hfind
  | found hfind _ ih =>
    cases h' with
    | nil => simp [hnil] at hfind
    | found hfind' hrest =>
      cases hfind.symm.trans hfind'
      rw [ih hrest]
    | kept hnone _ => cases hfind.symm.trans hnone
  | kept hnone _ ih =>
    cases h' with
    | found hfind _ => cases hnone.symm.trans hfind
    | kept _ hrest => rw [ih hrest]

end Searches

/-! ### Letters -/

section Letters
variable {x y : Char} {cs rest : List Char}

theorem not_capital_of_small (h : isSmall x) : isCapital x = false := by
  simp only [isSmall, Bool.and_eq_true, decide_eq_true_eq] at h
  simp only [isCapital, Bool.and_eq_false_iff, decide_eq_false_iff_not]
  exact .inr fun hle => absurd (Char.le_trans h.1 hle) (by decide)

theorem not_small_of_capital (h : isCapital x) : isSmall x = false := by
  by_contra hsmall
  rw [not_capital_of_small (by simpa using hsmall)] at h
  cases h

theorem not_digit_of_capital (h : isCapital x) : isDigit x = false := by
  simp only [isCapital, Bool.and_eq_true, decide_eq_true_eq] at h
  simp only [isDigit, Bool.and_eq_false_iff, decide_eq_false_iff_not]
  exact .inr fun hle => absurd (Char.le_trans h.1 hle) (by decide)

/-- Behind a small letter every capital has its underscore. -/
theorem boundary_iff_of_small (h : isSmall x) : Boundary x cs ↔ cs.head?.any isCapital := by
  cases cs with
  | nil => simp [Boundary]
  | cons y after => simp [Boundary, h]

theorem not_boundary_of_small (h : isSmall y) : ¬ Boundary x (y :: cs) := by
  simp [Boundary, not_capital_of_small h]

end Letters

/-! ### The second search -/

section Case
variable {x : Char}

theorem partCase_cons (x : Char) (cs : List Char) :
    partCase (x :: cs) =
      if (isSmall x ∨ isDigit x) ∧ cs.head?.any isCapital then x :: '_' :: partCase cs
      else x :: partCase cs := by
  cases cs with
  | nil => simp [partCase]
  | cons y rest =>
    rw [partCase]
    exact if_congr (by simp) rfl rfl

theorem replaced_partCase (cs : List Char) : Replaced caseMatch? cs (partCase cs) := by
  fun_induction partCase cs with
  | case1 => exact .nil
  | case2 x => exact .kept rfl .nil
  | case3 x y rest hmatch ih =>
    have hfind : caseMatch? (x :: y :: rest) = some ([x, '_', y], rest) := by
      simpa [caseMatch?] using hmatch
    have hcapital : isCapital y := by simp_all
    -- no match begins with the capital, so the search may as well go on behind it
    have hnone : caseMatch? (y :: rest) = none := by
      cases rest with
      | nil => rfl
      | cons z rest =>
        simp [caseMatch?, not_small_of_capital hcapital, not_digit_of_capital hcapital]
    generalize partCase (y :: rest) = out at ih
    cases ih with
    | found hfound _ => cases hnone.symm.trans hfound
    | kept _ hrest => exact .found hfind hrest
  | case4 x y rest hno ih =>
    refine .kept ?_ ih
    simpa [caseMatch?] using hno

end Case

/-! ### The first search -/

section Words
variable {x y : Char} {rest : List Char}

theorem head?_partWords (inWord : Bool) (cs : List Char) :
    (partWords inWord cs).head? = cs.head? := by
  fun_cases partWords inWord cs <;> rfl

/-- While a word is read, its small letters stay, and the search goes on behind them. -/
theorem partWords_true (cs : List Char) :
    partWords true cs = cs.takeWhile isSmall ++ partWords false (cs.dropWhile isSmall) := by
  induction cs with
  | nil => rfl
  | cons x rest ih =>
    by_cases hsmall : isSmall x
    · have hstep : partWords true (x :: rest) = x :: partWords true rest := by
        match rest with
        | [] => rfl
        | [_] => rfl
        | _ :: _ :: _ => simp [partWords, hsmall]
      rw [hstep, ih, List.takeWhile_cons_of_pos hsmall, List.dropWhile_cons_of_pos hsmall,
        List.cons_append]
    · rw [List.takeWhile_cons_of_neg hsmall, List.dropWhile_cons_of_neg hsmall, List.nil_append]
      match rest with
      | [] => rfl
      | [_] => rfl
      | _ :: _ :: _ => simp [partWords, hsmall]

theorem partWords_found (hline : x ≠ '\n') (hcapital : isCapital y)
    (hword : rest.takeWhile isSmall ≠ []) :
    partWords false (x :: y :: rest) =
      x :: '_' :: y :: rest.takeWhile isSmall ++ partWords false (rest.dropWhile isSmall) := by
  cases rest with
  | nil => exact absurd rfl hword
  | cons z rest =>
    have hsmall : isSmall z := by
      by_contra hno
      exact hword (List.takeWhile_cons_of_neg hno)
    rw [List.takeWhile_cons_of_pos hsmall, List.dropWhile_cons_of_pos hsmall, List.cons_append,
      List.cons_append, List.cons_append, List.cons_append, ← partWords_true]
    simp [partWords, hline, hcapital, hsmall]

theorem partWords_kept (h : wordMatch? (x :: rest) = none) :
    partWords false (x :: rest) = x :: partWords false rest := by
  match rest with
  | [] => rfl
  | [_] => rfl
  | y :: z :: rest =>
    have hno : ¬ (x ≠ '\n' ∧ isCapital y ∧ isSmall z) := by
      rintro ⟨hline, hcapital, hsmall⟩
      simp [wordMatch?, hline, hcapital, hsmall] at h
    simp only [not_and, Bool.not_eq_true] at hno
    by_cases hline : x = '\n'
    · simp [partWords, hline]
    · by_cases hcapital : isCapital y
      · simp [partWords, hno hline hcapital]
      · simp [partWords, hcapital]

theorem replaced_partWords : (cs : List Char) → Replaced wordMatch? cs (partWords false cs)
  | [] => .nil
  | x :: rest => by
    cases hfind : wordMatch? (x :: rest) with
    | none =>
      rw [partWords_kept hfind]
      exact .kept hfind (replaced_partWords rest)
    | some found =>
      cases rest with
      | nil => cases hfind
      | cons y rest =>
        have hmatch : x ≠ '\n' ∧ isCapital y ∧ rest.takeWhile isSmall ≠ [] := by
          by_contra hno
          rw [wordMatch?, if_neg hno] at hfind
          cases hfind
        obtain ⟨hline, hcapital, hword⟩ := hmatch
        rw [partWords_found hline hcapital hword]
        have hshorter : (rest.dropWhile isSmall).length ≤ rest.length :=
          List.dropWhile_suffix isSmall |>.length_le
        refine .found ?_ (replaced_partWords (rest.dropWhile isSmall))
        rw [wordMatch?, if_pos ⟨hline, hcapital, hword⟩]
termination_by cs => cs.length

end Words

/-! ### Both searches -/

theorem parted_cons (x : Char) (rest : List Char) :
    parted (x :: rest) =
      if Boundary x rest then x :: '_' :: parted rest else x :: parted rest := rfl

/-- Behind a small letter the second search finds all there is to find. -/
theorem partCase_cons_of_small {x : Char} (hsmall : isSmall x) {cs rest : List Char}
    (hhead : cs.head? = rest.head?) (hrest : partCase cs = parted rest) :
    partCase (x :: cs) = parted (x :: rest) := by
  rw [partCase_cons, hhead, hrest, parted_cons]
  refine if_congr ?_ rfl rfl
  rw [boundary_iff_of_small hsmall]
  exact and_iff_right (.inl hsmall)

/-- **The second search puts in what the first one passes over, and nothing else.** This holds
wherever the first one starts, also inside a word. -/
theorem partCase_partWords (inWord : Bool) (cs : List Char) :
    partCase (partWords inWord cs) = parted cs := by
  fun_induction partWords inWord cs with
  | case1 => rfl
  | case2 inWord x => rfl
  | case3 inWord x y =>
    rw [partCase_cons, parted_cons]
    refine if_congr ?_ rfl rfl
    simp [Boundary, and_comm]
  | case4 inWord x y z rest hword ih =>
    have hsmall : isSmall x := by simp_all
    exact partCase_cons_of_small hsmall (head?_partWords true (y :: z :: rest)) ih
  | case5 inWord x y z rest hword hmatch ih =>
    obtain ⟨⟨hline, hcapital⟩, hsmall⟩ : (x ≠ '\n' ∧ isCapital y) ∧ isSmall z := by
      simpa using hmatch
    have hplace : Boundary x (y :: z :: rest) := ⟨hcapital, .inl ⟨hline, hsmall⟩⟩
    rw [parted_cons x, if_pos hplace, parted_cons y, if_neg (not_boundary_of_small hsmall),
      ← partCase_cons_of_small hsmall (head?_partWords true rest) ih]
    -- neither beside the new underscore nor between the capital and its letter is there another
    have hno : isCapital '_' = false ∧ isSmall '_' = false ∧ isDigit '_' = false := by decide
    simp [partCase_cons x, partCase_cons '_', partCase_cons y, hno, not_capital_of_small hsmall]
  | case6 inWord x y z rest hword hmatch ih =>
    rw [partCase_cons, head?_partWords, ih, parted_cons]
    refine if_congr ?_ rfl rfl
    have hno : ¬ ((x ≠ '\n' ∧ isCapital y) ∧ isSmall z) := by simpa using hmatch
    simp only [Boundary, List.head?_cons, Option.any_some]
    grind

/-- **Where underscores go.** Both searches are leftmost replacements of matches that do not overlap.
What they make of a name, one behind the other, is the name with one underscore in each place that
calls for one, and this is put into lower case. -/
theorem snakeCase_exact (name : String) :
    (∀ words, Replaced wordMatch? name.toList words ↔ words = partWords false name.toList) ∧
    (∀ words parts, Replaced caseMatch? words parts ↔ parts = partCase words) ∧
    snakeCase name = lower (String.ofList (parted name.toList)) := by
  refine ⟨fun words => ⟨fun h => ?_, ?_⟩, fun words parts => ⟨fun h => ?_, ?_⟩, ?_⟩
  · exact h.unique rfl (replaced_partWords name.toList)
  · rintro rfl
    exact replaced_partWords name.toList
  · exact h.unique rfl (replaced_partCase words)
  · rintro rfl
    exact replaced_partCase words
  · rw [snakeCase, partCase_partWords, lower, String.toList_ofList]

/-- The capital of `Bb` follows a letter that the match of `Aa` has taken. -/
example : parted "xAaBb".toList = "x_Aa_Bb".toList := by decide

end Bindery.Text
