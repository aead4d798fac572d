import Bindery.Text.Blank
import Bindery.Text.Pieces

/-! The words of a text.

A text is blanks and words, and where a word ends a blank follows or nothing does (`Spaced`). Each
text has words in this sense, and no others than `words` gives (`spaced_iff`); so words with single
spaces between them are read back (`words_join`). -/
namespace Bindery.Text

/-- A word is not empty and has no blank in it. -/
def IsWord (word : String) : Prop := word ≠ "" ∧ ∀ c ∈ word.toList, isBlank c = false

instance (word : String) : Decidable (IsWord word) :=
  decidable_of_iff (word ≠ "" ∧ word.toList.all (!isBlank ·) = true) (by simp [IsWord])

/-- Characters that are the given words, one after the other, with blanks around them. -/
inductive Spaced : List String → List Char → Prop where
  | nil : Spaced [] []
  | blank {ws : List String} {c : Char} {cs : List Char} :
      isBlank c = true → Spaced ws cs → Spaced ws (c :: cs)
  | word {w : String} {ws : List String} {cs : List Char} :
      IsWord w → (∀ c ∈ cs.head?, isBlank c = true) → Spaced ws cs →
      Spaced (w :: ws) (w.toList ++ cs)

/-! ### The runs between blanks -/

section Runs
variable {cs first rest : List Char} {more : List (List Char)}

theorem blankParted_of_blank {c : Char} (hc : isBlank c = true) :
    blankParted (c :: cs) = [] :: blankParted cs := by
  rw [blankParted, if_pos hc]

theorem blankParted_append {front : List Char} (hfront : ∀ c ∈ front, isBlank c = false)
    (h : blankParted cs = first :: more) :
    blankParted (front ++ cs) = (front ++ first) :: more := by
  induction front with
  | nil => exact h
  | cons c front ih =>
    obtain ⟨hc, hfront⟩ := List.forall_mem_cons.1 hfront
    rw [List.cons_append, blankParted, if_neg (Bool.eq_false_iff.1 hc), ih hfront]
    rfl

/-- At a blank or at the end the first run is empty. -/
theorem exists_blankParted_of_head? (h : ∀ c ∈ cs.head?, isBlank c = true) :
    ∃ more, blankParted cs = [] :: more := by
  cases cs with
  | nil => exact ⟨[], rfl⟩
  | cons c rest => exact ⟨_, blankParted_of_blank (h c rfl)⟩

/-- A run in front of a blank is a word, unless it is empty. -/
theorem Spaced.run (h : Spaced ((more.filter (· ≠ [])).map String.ofList) rest)
    (hfirst : ∀ c ∈ first, isBlank c = false) (hrest : ∀ c ∈ rest.head?, isBlank c = true) :
    Spaced (((first :: more).filter (· ≠ [])).map String.ofList) (first ++ rest) := by
  by_cases hnil : first = []
  · subst hnil
    simpa using h
  · have hword : IsWord (String.ofList first) := by
      refine ⟨fun hempty => hnil ?_, by simpa using hfirst⟩
      simpa using congrArg String.toList hempty
    have hnext := h.word hword hrest
    rw [String.toList_ofList] at hnext
    simpa [List.filter_cons, hnil] using hnext

/-- The characters are the first run and then the words of the other ones. -/
theorem exists_spaced (cs : List Char) : ∃ first more rest, blankParted cs = first :: more ∧
    cs = first ++ rest ∧ (∀ c ∈ first, isBlank c = false) ∧ (∀ c ∈ rest.head?, isBlank c = true) ∧
    Spaced ((more.filter (· ≠ [])).map String.ofList) rest := by
  induction cs with
  | nil => exact ⟨[], [], [], rfl, rfl, by simp, by simp, .nil⟩
  | cons c cs ih =>
    obtain ⟨first, more, rest, hparted, hsplit, hfirst, hrest, hspaced⟩ := ih
    cases hc : isBlank c with
    | false =>
      have honly : ∀ c' ∈ [c], isBlank c' = false := by simpa using hc
      exact ⟨c :: first, more, rest, blankParted_append honly hparted,
        by rw [hsplit, List.cons_append], List.forall_mem_cons.2 ⟨hc, hfirst⟩, hrest, hspaced⟩
    | true =>
      refine ⟨[], first :: more, c :: cs, by rw [blankParted_of_blank hc, hparted], rfl,
        by simp, by simpa using hc, .blank hc ?_⟩
      rw [hsplit]
      exact hspaced.run hfirst hrest

end Runs

/-! ### Words -/

theorem wordChars_of_blank {c : Char} {cs : List Char} (hc : isBlank c = true) :
    wordChars (c :: cs) = wordChars cs := by
  simp [wordChars, blankParted_of_blank hc]

/-- A word that ends comes in front of the other words. -/
theorem wordChars_append {w : String} {cs : List Char} (hw : IsWord w)
    (hend : ∀ c ∈ cs.head?, isBlank c = true) :
    wordChars (w.toList ++ cs) = w.toList :: wordChars cs := by
  obtain ⟨more, hmore⟩ := exists_blankParted_of_head? hend
  have hne : w.toList ≠ [] := by simpa using hw.1
  rw [wordChars, blankParted_append hw.2 hmore, List.append_nil, List.filter_cons,
    if_pos (decide_eq_true hne), wordChars, hmore]
  simp

theorem spaced_wordChars (cs : List Char) : Spaced ((wordChars cs).map String.ofList) cs := by
  obtain ⟨first, more, rest, hparted, hsplit, hfirst, hrest, hspaced⟩ := exists_spaced cs
  rw [wordChars, hparted, hsplit]
  exact hspaced.run hfirst hrest

theorem Spaced.wordChars_eq {ws : List String} {cs : List Char} (h : Spaced ws cs) :
    wordChars cs = ws.map String.toList := by
  induction h with
  | nil => rfl
  | blank hc _ ih => rw [wordChars_of_blank hc, ih]
  | word hw hend _ ih => rw [wordChars_append hw hend, ih, List.map_cons]

/-- **A text spaces its words and no others.** -/
theorem spaced_iff {ws : List String} {text : String} :
    Spaced ws text.toList ↔ words text = ws := by
  constructor
  · intro h
    rw [words, h.wordChars_eq, List.map_map]
    exact (List.map_congr_left fun w _ => String.ofList_toList).trans (List.map_id ws)
  · rintro rfl
    exact spaced_wordChars text.toList

theorem head?_spaces (ws : List String) :
    ∀ c ∈ (ws.flatMap fun next => " ".toList ++ next.toList).head?, isBlank c = true := by
  cases ws with
  | nil => simp
  | cons next rest => exact fun c hc => Option.some.inj hc ▸ by decide

/-- Words with a space in front of each of them are spaced. -/
theorem spaced_spaces {ws : List String} (h : ∀ w ∈ ws, IsWord w) :
    Spaced ws (ws.flatMap fun next => " ".toList ++ next.toList) := by
  induction ws with
  | nil => exact .nil
  | cons w rest ih =>
    obtain ⟨hw, hrest⟩ := List.forall_mem_cons.1 h
    exact .blank (by decide) (.word hw (head?_spaces rest) (ih hrest))

/-- **Words are read back** from a text in which single spaces stand between them. -/
theorem words_join {ws : List String} (h : ∀ w ∈ ws, IsWord w) : words (join " " ws) = ws := by
  rw [← spaced_iff]
  cases ws with
  | nil => exact .nil
  | cons w rest =>
    obtain ⟨hw, hrest⟩ := List.forall_mem_cons.1 h
    rw [toList_join_cons]
    exact .word hw (head?_spaces rest) (spaced_spaces hrest)

end Bindery.Text
