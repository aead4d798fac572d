/-! Splitting a text at a character and joining pieces again.

`pieces` cuts at every occurrence, so a text with `n` of them has `n + 1` pieces, some
of them empty, and joining the pieces gives the text back (`join_pieces`). Dotted
names are read with it: the part before the last dot is where a thing lives, the part
after it what the thing is called. -/
namespace Bindery.Text

/-- Lists of pieces are compared piece by piece. -/
instance lawfulBEq_strings : LawfulBEq (List String) := inferInstance

/-- The runs of characters between the occurrences of `sep`. -/
def splitChars (sep : Char) : List Char → List (List Char)
  | [] => [[]]
  | c :: rest =>
    if c = sep then [] :: splitChars sep rest
    else
      match splitChars sep rest with
      | [] => [[c]]
      | piece :: more => (c :: piece) :: more

/-- The pieces of a text between the occurrences of `sep`. -/
def pieces (sep : Char) (text : String) : List String :=
  (splitChars sep text.toList).map String.ofList

/-- Pieces with `sep` between neighbours. -/
def join (sep : String) : List String → String
  | [] => ""
  | piece :: rest => rest.foldl (fun text next => text ++ sep ++ next) piece

/-- What stands before and after the last `sep`, if there is one. -/
def splitLast? (sep : Char) (text : String) : Option (String × String) :=
  match (pieces sep text).reverse with
  | last :: before :: earlier =>
    some (join (String.singleton sep) (before :: earlier).reverse, last)
  | _ => none

/-- What stands before the first occurrence of a run of characters, or all. -/
def beforeChars (mark : List Char) : List Char → List Char
  | [] => []
  | c :: rest => if mark.isPrefixOf (c :: rest) then [] else c :: beforeChars mark rest

/-- What stands before the first `mark`, or the whole text if it has none. -/
def before (mark text : String) : String := String.ofList (beforeChars mark.toList text.toList)

/-- A text `count` times in a row. -/
def replicate (count : Nat) (text : String) : String := join "" (List.replicate count text)

/-! ### Cutting and joining -/

theorem splitChars_ne_nil (sep : Char) (chars : List Char) : splitChars sep chars ≠ [] := by
  cases chars with
  | nil => simp [splitChars]
  | cons c rest =>
    simp only [splitChars]
    split
    · simp
    · split <;> simp

theorem pieces_ne_nil (sep : Char) (text : String) : pieces sep text ≠ [] := by
  simp [pieces, splitChars_ne_nil]

/-- What stands in front of pieces stays in front when more are joined to it. -/
theorem foldl_append_join (sep before text : String) (rest : List String) :
    rest.foldl (fun text next => text ++ sep ++ next) (before ++ text) =
      before ++ rest.foldl (fun text next => text ++ sep ++ next) text := by
  induction rest generalizing text with
  | nil => rfl
  | cons next rest ih =>
    rw [List.foldl_cons, List.foldl_cons, ← ih, String.append_assoc, String.append_assoc,
      String.append_assoc]

theorem join_cons {sep piece : String} {rest : List String} (h : rest ≠ []) :
    join sep (piece :: rest) = piece ++ sep ++ join sep rest := by
  cases rest with
  | nil => exact absurd rfl h
  | cons next rest => exact foldl_append_join sep (piece ++ sep) next rest

theorem join_concat {sep last : String} {front : List String} (h : front ≠ []) :
    join sep (front ++ [last]) = join sep front ++ sep ++ last := by
  cases front with
  | nil => exact absurd rfl h
  | cons piece rest => simp [join]

theorem join_append (sep : String) {front back : List String} (hfront : front ≠ [])
    (hback : back ≠ []) : join sep (front ++ back) = join sep front ++ sep ++ join sep back := by
  induction front with
  | nil => exact absurd rfl hfront
  | cons piece front ih =>
    rw [List.cons_append, join_cons (by simp [hback])]
    cases front with
    | nil => rfl
    | cons next front =>
      have hcons : join sep (piece :: next :: front) = piece ++ sep ++ join sep (next :: front) :=
        join_cons (List.cons_ne_nil next front)
      rw [ih (List.cons_ne_nil next front), hcons]
      simp only [String.append_assoc]

theorem toList_join_cons (sep piece : String) (rest : List String) :
    (join sep (piece :: rest)).toList =
      piece.toList ++ rest.flatMap fun next => sep.toList ++ next.toList := by
  induction rest generalizing piece with
  | nil => simp [join]
  | cons next rest ih =>
    have hstep : join sep (piece :: next :: rest) = join sep ((piece ++ sep ++ next) :: rest) := rfl
    rw [hstep, ih]
    simp

theorem toList_replicate (count : Nat) (c : Char) :
    (replicate count (String.singleton c)).toList = List.replicate count c := by
  cases count with
  | zero => rfl
  | succ count =>
    rw [replicate, List.replicate_succ, toList_join_cons, List.replicate_succ]
    simp [List.flatMap_replicate]

theorem join_splitChars (sep : Char) (chars : List Char) :
    join (String.singleton sep) ((splitChars sep chars).map String.ofList) =
      String.ofList chars := by
  induction chars with
  | nil => rfl
  | cons c rest ih =>
    simp only [splitChars]
    split
    · next h =>
      rw [List.map_cons, join_cons (by simp [splitChars_ne_nil]), ih, h]
      apply String.ext
      simp
    · split
      · next h => exact absurd h (splitChars_ne_nil sep rest)
      · next piece more h =>
        rw [h] at ih
        cases more with
        | nil =>
          have ih' : String.ofList piece = String.ofList rest := ih
          simp [join, String.ofList_injective ih']
        | cons next more =>
          have ih' : String.ofList piece ++ String.singleton sep ++
              join (String.singleton sep) ((next :: more).map String.ofList) =
                String.ofList rest := by
            rw [← ih, List.map_cons (a := piece), join_cons (by simp)]
          have hc : String.ofList (c :: rest) = String.singleton c ++ String.ofList rest := by
            apply String.ext
            simp
          rw [hc, ← ih', List.map_cons, join_cons (by simp)]
          apply String.ext
          simp

/-- **Joining what a text was cut into gives the text back.** -/
theorem join_pieces (sep : Char) (text : String) :
    join (String.singleton sep) (pieces sep text) = text := by
  rw [pieces, join_splitChars, String.ofList_toList]

/-! ### Where the cuts are -/

/-- A separator always cuts. -/
theorem splitChars_append (sep : Char) (before after : List Char) :
    splitChars sep (before ++ sep :: after) = splitChars sep before ++ splitChars sep after := by
  induction before with
  | nil => simp [splitChars]
  | cons c rest ih =>
    by_cases h : c = sep
    · simp [splitChars, h, ih]
    · simp only [List.cons_append, splitChars, h, if_false, ih]
      cases hs : splitChars sep rest with
      | nil => exact absurd hs (splitChars_ne_nil sep rest)
      | cons piece more => simp

theorem splitChars_of_not_mem {sep : Char} {chars : List Char} (h : sep ∉ chars) :
    splitChars sep chars = [chars] := by
  induction chars with
  | nil => rfl
  | cons c rest ih =>
    simp only [List.mem_cons, not_or] at h
    simp [splitChars, ih h.2, Ne.symm h.1]

theorem not_mem_of_mem_splitChars {sep : Char} {chars piece : List Char}
    (h : piece ∈ splitChars sep chars) : sep ∉ piece := by
  induction chars generalizing piece with
  | nil =>
    obtain rfl : piece = [] := by simpa [splitChars] using h
    exact List.not_mem_nil
  | cons c rest ih =>
    by_cases hc : c = sep
    · simp only [splitChars, hc, if_true, List.mem_cons] at h
      rcases h with rfl | h
      · exact List.not_mem_nil
      · exact ih h
    · simp only [splitChars, hc, if_false] at h
      cases hs : splitChars sep rest with
      | nil => exact absurd hs (splitChars_ne_nil sep rest)
      | cons first more =>
        rw [hs] at h ih
        rcases List.mem_cons.1 h with rfl | h
        · simpa [Ne.symm hc] using ih List.mem_cons_self
        · exact ih (List.mem_cons_of_mem _ h)

theorem pieces_append (sep : Char) (before after : String) :
    pieces sep (before ++ String.singleton sep ++ after) =
      pieces sep before ++ pieces sep after := by
  simp [pieces, splitChars_append]

theorem pieces_of_not_mem {sep : Char} {text : String} (h : sep ∉ text.toList) :
    pieces sep text = [text] := by
  simp [pieces, splitChars_of_not_mem h]

theorem not_mem_of_mem_pieces {sep : Char} {text piece : String} (h : piece ∈ pieces sep text) :
    sep ∉ piece.toList := by
  obtain ⟨chars, hchars, rfl⟩ := List.mem_map.1 h
  rw [String.toList_ofList]
  exact not_mem_of_mem_splitChars hchars

/-- **Cutting joined pieces gives the pieces back**, if there is one and the separator is in
none of them. -/
theorem pieces_join {sep : Char} {segments : List String} (hne : segments ≠ [])
    (h : ∀ s ∈ segments, sep ∉ s.toList) :
    pieces sep (join (String.singleton sep) segments) = segments := by
  induction segments with
  | nil => exact absurd rfl hne
  | cons segment rest ih =>
    have hs := pieces_of_not_mem (h segment List.mem_cons_self)
    by_cases hrest : rest = []
    · subst hrest
      exact hs
    · rw [join_cons hrest, pieces_append, hs,
        ih hrest fun s hs => h s (List.mem_cons_of_mem _ hs), List.singleton_append]

theorem splitLast?_append {sep : Char} {before last : String} (h : sep ∉ last.toList) :
    splitLast? sep (before ++ String.singleton sep ++ last) = some (before, last) := by
  have hp := pieces_append sep before last
  rw [pieces_of_not_mem h] at hp
  cases hr : (pieces sep before).reverse with
  | nil => exact absurd (List.reverse_eq_nil_iff.1 hr) (pieces_ne_nil sep before)
  | cons final earlier =>
    simp only [splitLast?, hp, List.reverse_append, List.reverse_singleton, List.singleton_append,
      hr]
    rw [← hr, List.reverse_reverse, join_pieces]

theorem splitLast?_of_not_mem {sep : Char} {text : String} (h : sep ∉ text.toList) :
    splitLast? sep text = none := by
  rw [splitLast?, pieces_of_not_mem h]
  rfl

theorem not_mem_of_splitLast? {sep : Char} {text before last : String}
    (h : splitLast? sep text = some (before, last)) : sep ∉ last.toList := by
  rw [splitLast?] at h
  split at h
  · next last' final earlier hr =>
    cases h
    have hlast : last ∈ pieces sep text := by
      rw [← List.mem_reverse, hr]
      exact List.mem_cons_self
    exact not_mem_of_mem_pieces hlast
  · cases h

theorem not_mem_of_splitLast?_eq_none {sep : Char} {text : String}
    (h : splitLast? sep text = none) : sep ∉ text.toList := by
  rw [splitLast?] at h
  split at h
  · cases h
  · next hfew =>
    cases hr : (pieces sep text).reverse with
    | nil => exact absurd (List.reverse_eq_nil_iff.1 hr) (pieces_ne_nil sep text)
    | cons last before =>
      cases before with
      | nil =>
        -- A single piece is the text itself.
        have hp : pieces sep text = [last] := by simpa using congrArg List.reverse hr
        have ht : last = text := by simpa [hp, join] using join_pieces sep text
        have hmem : last ∈ pieces sep text := by simp [hp]
        exact ht ▸ not_mem_of_mem_pieces hmem
      | cons final earlier => exact absurd hr (hfew last final earlier)

/-! ### What stands in front -/

theorem beforeChars_append {sep : Char} {front : List Char} (h : sep ∉ front) (rest : List Char) :
    beforeChars [sep] (front ++ sep :: rest) = front := by
  induction front with
  | nil => simp [beforeChars]
  | cons c front ih =>
    simp only [List.mem_cons, not_or] at h
    simp [beforeChars, h.1, ih h.2]

theorem beforeChars_of_not_mem {sep : Char} {chars : List Char} (h : sep ∉ chars) :
    beforeChars [sep] chars = chars := by
  induction chars with
  | nil => rfl
  | cons c rest ih =>
    simp only [List.mem_cons, not_or] at h
    simp [beforeChars, h.1, ih h.2]

theorem before_append {sep : Char} {front : String} (h : sep ∉ front.toList) (rest : String) :
    before (String.singleton sep) (front ++ String.singleton sep ++ rest) = front := by
  simp [before, beforeChars_append h]

theorem before_of_not_mem {sep : Char} {text : String} (h : sep ∉ text.toList) :
    before (String.singleton sep) text = text := by
  simp [before, beforeChars_of_not_mem h]

end Bindery.Text
