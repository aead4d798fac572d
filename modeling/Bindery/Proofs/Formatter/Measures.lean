import Bindery.Formatter.Head
import Bindery.Formatter.Wc
import Mathlib.Data.List.Basic

/-! How much there is of a text.

Counting goes on from any counts that were made before (`Wc.foldl_after`). Nothing is open behind
the end of a line, so the counts of texts that end with their lines are those of all of them in a
row (`Wc.of_flatten`). Bytes, lines and words are what one would count by hand. The beginning of a
text is so many of its lines with their ends, and more of it is taken out of a pipe than is copied
only where blocks are read (`Head.take_length`). -/
namespace Bindery.Formatter

/-! ### Counting -/

namespace Wc
variable {text : Octets}

theorem add_empty (k : Counts) : k.add {} = k := by
  simp [Counts.add]

theorem add_assoc (k l m : Counts) : (k.add l).add m = k.add (l.add m) := by
  simp [Counts.add, Nat.add_assoc, Nat.max_assoc]

/-- A count before which other counts were made. -/
def after (k : Counts) (s : Counting) : Counting := { s with counts := k.add s.counts }

theorem step_after (k : Counts) (s : Counting) (c : Char) :
    (after k s).step c = after k (s.step c) := by
  unfold Counting.step after
  dsimp only [Counting.finish, Counts.add]
  split_ifs <;> simp [Nat.add_assoc, Nat.max_assoc]

theorem foldl_after (k : Counts) (s : Counting) :
    text.foldl Counting.step (after k s) = after k (text.foldl Counting.step s) := by
  induction text generalizing s with
  | nil => rfl
  | cons c rest ih => rw [List.foldl_cons, List.foldl_cons, step_after, ih]

theorem finish_after (k : Counts) (s : Counting) : (after k s).finish = k.add s.finish := by
  simp [Counting.finish, after, Counts.add, Nat.max_assoc]

/-- Nothing is open behind the end of a line. -/
theorem foldl_line (front : Octets) :
    (front ++ ['\n']).foldl Counting.step {} = after (Counts.of (front ++ ['\n'])) {} := by
  rw [Counts.of, List.foldl_append, List.foldl_cons, List.foldl_nil]
  generalize front.foldl Counting.step {} = s
  simp [Counting.step, Counting.finish, after, Counts.add]

theorem of_append {front : Octets} (hfront : front = [] ∨ front.getLast? = some '\n')
    (back : Octets) : Counts.of (front ++ back) = (Counts.of front).add (Counts.of back) := by
  obtain rfl | hlast := hfront
  · simp [Counts.of, Counts.add, Counting.finish]
  · obtain ⟨before, rfl⟩ := List.getLast?_eq_some_iff.1 hlast
    rw [Counts.of, List.foldl_append, foldl_line, foldl_after, finish_after]
    rfl

/-- **The counts of several texts are those of all of them in a row**, if they end with their
lines. -/
theorem of_flatten {texts : List Octets}
    (htexts : ∀ t ∈ texts, t = [] ∨ t.getLast? = some '\n') :
    Counts.of texts.flatten = texts.foldl (fun total t => total.add (Counts.of t)) {} := by
  have hrun : ∀ total : Counts, total.add (Counts.of texts.flatten) =
      texts.foldl (fun total t => total.add (Counts.of t)) total := by
    induction texts with
    | nil => exact fun total => add_empty total
    | cons t rest ih =>
      obtain ⟨ht, hrest⟩ := List.forall_mem_cons.1 htexts
      intro total
      rw [List.flatten_cons, of_append ht, List.foldl_cons, ← ih hrest, add_assoc]
  rw [← hrun]
  simp [Counts.add]

/-! ### Bytes, lines and words -/

theorem bytes_of (text : Octets) : (Counts.of text).bytes = text.length := by
  have hrun : ∀ s : Counting,
      (text.foldl Counting.step s).counts.bytes = s.counts.bytes + text.length := by
    induction text with
    | nil => exact fun s => rfl
    | cons c rest ih =>
      intro s
      have hstep : (s.step c).counts.bytes = s.counts.bytes + 1 := by
        unfold Counting.step
        dsimp only [Counting.finish]
        split_ifs <;> rfl
      rw [List.foldl_cons, ih, hstep, List.length_cons, Nat.add_assoc, Nat.add_comm 1]
  exact (hrun {}).trans (Nat.zero_add _)

theorem lines_of (text : Octets) : (Counts.of text).lines = text.count '\n' := by
  have hrun : ∀ s : Counting,
      (text.foldl Counting.step s).counts.lines = s.counts.lines + text.count '\n' := by
    induction text with
    | nil => exact fun s => rfl
    | cons c rest ih =>
      intro s
      have hstep : (s.step c).counts.lines = s.counts.lines + if c = '\n' then 1 else 0 := by
        unfold Counting.step
        dsimp only [Counting.finish]
        split_ifs <;> rfl
      rw [List.foldl_cons, ih, hstep, List.count_cons, Nat.add_assoc, Nat.add_comm (List.count _ _)]
      simp
  exact (hrun {}).trans (Nat.zero_add _)

/-- A character that ends a word. -/
def isGap (c : Char) : Bool := c ∈ ['\n', '\r', '\x0c', '\t', ' ', '\x0b']

/-- How many words there are between gaps. -/
def wordsBetween (text : Octets) : Nat := (text.splitOnP isGap).countP (· ≠ [])

theorem wordsBetween_gap {c : Char} (hc : isGap c = true) (rest : Octets) :
    wordsBetween (c :: rest) = wordsBetween rest := by
  have hsplit : ([] ++ c :: rest).splitOnP isGap = [] :: rest.splitOnP isGap :=
    List.splitOnP_append_cons_of_forall_mem (by simp) c hc rest
  rw [wordsBetween, ← List.nil_append (c :: rest), hsplit]
  simp [wordsBetween]

/-- A word goes on up to the next gap. -/
theorem wordsBetween_word {c : Char} (hc : isGap c = false) (rest : Octets) :
    wordsBetween (c :: rest) = wordsBetween (rest.dropWhile (!isGap ·)) + 1 := by
  have hfront : ∀ d ∈ c :: rest.takeWhile (!isGap ·), isGap d = false := by
    refine List.forall_mem_cons.2 ⟨hc, fun d hd => ?_⟩
    simpa using List.all_eq_true.1 List.all_takeWhile d hd
  have hwhole := List.takeWhile_append_dropWhile (p := (!isGap ·)) (l := rest)
  -- The word ends with the text or at a gap.
  cases hback : rest.dropWhile (!isGap ·) with
  | nil =>
    rw [hback, List.append_nil] at hwhole
    rw [hwhole] at hfront
    rw [wordsBetween, List.splitOnP_eq_singleton hfront]
    simp [wordsBetween]
  | cons d back =>
    have hd : isGap d = true := by
      have hhead := List.head?_dropWhile_not (!isGap ·) rest
      simpa [hback] using hhead
    rw [hback] at hwhole
    rw [wordsBetween_gap hd, ← hwhole, ← List.cons_append, wordsBetween,
      List.splitOnP_append_cons_of_forall_mem hfront d hd]
    simp [wordsBetween]

/-- A character that counting takes notice of. -/
def isNoticed (c : Char) : Bool := isGap c || isShown c

theorem step_gap {c : Char} (hc : isGap c = true) (s : Counting) :
    (s.step c).counts.words = s.counts.words ∧ (s.step c).inWord = false := by
  simp only [isGap, List.mem_cons, List.not_mem_nil, or_false, decide_eq_true_eq] at hc
  obtain rfl | rfl | rfl | rfl | rfl | rfl := hc <;> exact ⟨rfl, rfl⟩

theorem step_word {c : Char} (hc : isGap c = false) (s : Counting) :
    (s.step c).counts.words = (s.counts.words + if isShown c && !s.inWord then 1 else 0) ∧
      (s.step c).inWord = (isShown c || s.inWord) := by
  simp only [isGap, List.mem_cons, List.not_mem_nil, or_false, decide_eq_false_iff_not,
    not_or] at hc
  obtain ⟨h1, h2, h3, h4, h5, h6⟩ := hc
  unfold Counting.step
  simp only [h1, h2, h3, h4, h5, h6, or_self, if_false]
  split_ifs <;> simp_all

theorem words_foldl (s : Counting) :
    (text.foldl Counting.step s).counts.words = s.counts.words +
      wordsBetween (if s.inWord then (text.filter isNoticed).dropWhile (!isGap ·)
        else text.filter isNoticed) := by
  induction text generalizing s with
  | nil => simp [wordsBetween]
  | cons c rest ih =>
    rw [List.foldl_cons, ih]
    cases hgap : isGap c with
    | true =>
      obtain ⟨hwords, hin⟩ := step_gap hgap s
      simp [hwords, hin, isNoticed, hgap, wordsBetween_gap hgap]
    | false =>
      obtain ⟨hwords, hin⟩ := step_word hgap s
      cases hshown : isShown c with
      | true =>
        cases hs : s.inWord <;>
          simp [hwords, hin, hs, hshown, isNoticed, hgap, wordsBetween_word hgap, Nat.add_assoc,
            Nat.add_comm 1]
      | false => simp [hwords, hin, hshown, isNoticed, hgap]

/-- **Words are what stands between gaps**, without what cannot be seen. -/
theorem words_of (text : Octets) :
    (Counts.of text).words = wordsBetween (text.filter isNoticed) :=
  (words_foldl {}).trans (Nat.zero_add _)

end Wc

/-! ### Beginnings -/

namespace Head
variable {lineEnd : Char} {text : Octets}

theorem linesEnd_eq_add (count length : Nat) :
    linesEnd lineEnd count length text = length + linesEnd lineEnd count 0 text := by
  induction text generalizing count length with
  | nil => cases count <;> rfl
  | cons c rest ih =>
    cases count with
    | zero => rfl
    | succ count =>
      rw [linesEnd, linesEnd, ih _ (length + 1), ih _ (0 + 1)]
      omega

/-- What is looked for in a line is found behind it. -/
theorem linesEnd_line {line : Octets} (hline : lineEnd ∉ line) (count : Nat) (rest : Octets) :
    linesEnd lineEnd (count + 1) 0 (line ++ lineEnd :: rest) =
      line.length + 1 + linesEnd lineEnd count 0 rest := by
  induction line with
  | nil => rw [List.nil_append, linesEnd, if_pos rfl, linesEnd_eq_add]; rfl
  | cons c line ih =>
    obtain ⟨hc, hline⟩ : lineEnd ≠ c ∧ lineEnd ∉ line := by simpa using hline
    rw [List.cons_append, linesEnd, if_neg (Ne.symm hc), linesEnd_eq_add, ih hline,
      List.length_cons]
    omega

theorem linesEnd_of_not_mem (htext : lineEnd ∉ text) (count : Nat) :
    linesEnd lineEnd (count + 1) 0 text = text.length := by
  induction text with
  | nil => rfl
  | cons c rest ih =>
    obtain ⟨hc, hrest⟩ : lineEnd ≠ c ∧ lineEnd ∉ rest := by simpa using htext
    rw [linesEnd, if_neg (Ne.symm hc), linesEnd_eq_add, ih hrest, List.length_cons]
    omega

/-- Lines with their ends. -/
def ended (lineEnd : Char) (lines : List Octets) : Octets := lines.flatMap (· ++ [lineEnd])

/-- **So many lines are the first ones with their ends**, or the whole text if it does not have
so many. -/
theorem take_linesEnd {lines : List Octets} {last : Octets} (hlines : ∀ l ∈ lines, lineEnd ∉ l)
    (hlast : lineEnd ∉ last) (count : Nat) :
    (ended lineEnd lines ++ last).take (linesEnd lineEnd count 0 (ended lineEnd lines ++ last)) =
      if count ≤ lines.length then ended lineEnd (lines.take count)
      else ended lineEnd lines ++ last := by
  induction lines generalizing count with
  | nil =>
    cases count with
    | zero => simp [linesEnd, ended]
    | succ count => simp [ended, linesEnd_of_not_mem hlast]
  | cons line rest ih =>
    cases count with
    | zero => simp [linesEnd, ended]
    | succ count =>
      obtain ⟨hline, hrest⟩ := List.forall_mem_cons.1 hlines
      have hsplit : ended lineEnd (line :: rest) ++ last =
          (line ++ [lineEnd]) ++ (ended lineEnd rest ++ last) := by simp [ended]
      have hfound : linesEnd lineEnd (count + 1) 0 (ended lineEnd (line :: rest) ++ last) =
          (line ++ [lineEnd]).length + linesEnd lineEnd count 0 (ended lineEnd rest ++ last) := by
        rw [hsplit, List.append_assoc, List.singleton_append, linesEnd_line hline,
          List.length_append, List.length_singleton]
      rw [hfound, hsplit, List.take_length_add_append, ih hrest]
      simp only [List.length_cons, Nat.add_le_add_iff_right, List.take_succ_cons]
      split
      · simp [ended]
      · rfl

theorem count_ended {lines : List Octets} (hlines : ∀ l ∈ lines, lineEnd ∉ l) :
    (ended lineEnd lines).count lineEnd = lines.length := by
  induction lines with
  | nil => rfl
  | cons line rest ih =>
    obtain ⟨hline, hrest⟩ := List.forall_mem_cons.1 hlines
    have hcons : ended lineEnd (line :: rest) = line ++ [lineEnd] ++ ended lineEnd rest := rfl
    rw [hcons, List.count_append, List.count_append, ih hrest, List.count_eq_zero.2 hline,
      List.count_singleton_self, List.length_cons]
    omega

/-- The last line counts whether it has its end or not. -/
theorem lineCount_ended {lines : List Octets} {last : Octets} (hlines : ∀ l ∈ lines, lineEnd ∉ l)
    (hlast : lineEnd ∉ last) :
    lineCount lineEnd (ended lineEnd lines ++ last) =
      lines.length + if last = [] then 0 else 1 := by
  rw [lineCount, List.count_append, count_ended hlines, List.count_eq_zero.2 hlast, Nat.add_zero]
  congr 1
  obtain rfl | ⟨before, c, rfl⟩ := List.eq_nil_or_concat last
  · have hend : (ended lineEnd lines ++ []).getLast?.all (· = lineEnd) = true := by
      obtain rfl | ⟨front, line, rfl⟩ := List.eq_nil_or_concat lines
      · rfl
      · simp [ended, List.getLast?_append]
    rw [hend]
    rfl
  · have hopen : c ≠ lineEnd := fun h => hlast (by simp [h])
    simp [List.getLast?_append, hopen]

theorem linesEnd_le (count : Nat) (text : Octets) :
    linesEnd lineEnd count 0 text ≤ text.length := by
  induction text generalizing count with
  | nil => cases count <;> exact Nat.le_refl 0
  | cons c rest ih =>
    cases count with
    | zero => exact Nat.zero_le _
    | succ count =>
      rw [linesEnd, linesEnd_eq_add, List.length_cons]
      have hrest := ih (if c = lineEnd then count else count + 1)
      omega

theorem length_le (choice : Choice) (text : Octets) : choice.length text ≤ text.length := by
  unfold Choice.length
  split
  · exact Nat.min_le_right _ _
  · exact Nat.sub_le _ _
  · exact linesEnd_le _ _
  · exact linesEnd_le _ _

/-- **What is copied of lines** is the first of them, all but so many if these are left out. A line
that is cut short is copied only together with all that stands before it. -/
theorem take_length {choice : Choice} {lines : List Octets} {last : Octets}
    (hbytes : choice.extent.ofBytes = false) (hlines : ∀ l ∈ lines, choice.lineEnd ∉ l)
    (hlast : choice.lineEnd ∉ last) {count : Nat}
    (hcount : count = if choice.extent.allBut then
      (lines.length + if last = [] then 0 else 1) - choice.extent.count
      else choice.extent.count) :
    (ended choice.lineEnd lines ++ last).take (choice.length (ended choice.lineEnd lines ++ last)) =
      if count ≤ lines.length then ended choice.lineEnd (lines.take count)
      else ended choice.lineEnd lines ++ last := by
  have hlength : choice.length (ended choice.lineEnd lines ++ last) =
      linesEnd choice.lineEnd count 0 (ended choice.lineEnd lines ++ last) := by
    rw [Choice.length, hbytes, hcount]
    cases choice.extent.allBut with
    | false => rfl
    | true => simp only [lineCount_ended hlines hlast, if_true]
  rw [hlength, take_linesEnd hlines hlast]

/-- What is copied has been read. -/
theorem length_le_readLength (choice : Choice) (isFile : Bool) (text : Octets) :
    choice.length text ≤ choice.readLength isFile text (choice.length text) := by
  have hle := length_le choice text
  unfold Choice.readLength
  split_ifs with hfile hall hbytes hnone hblock
  · exact Nat.le_refl _
  · exact hle
  · exact Nat.le_refl _
  · have hlength : choice.length text = 0 := by
      simp only [Choice.length, hall, hbytes, hnone, linesEnd]
    exact Nat.le_of_eq hlength
  · rw [blockSize]
    omega
  · exact hle

/-- Of a file, and of bytes from the front, no more is read than is copied. -/
theorem readLength_eq {choice : Choice} {isFile : Bool}
    (h : isFile = true ∨ choice.extent.ofBytes = true ∧ choice.extent.allBut = false)
    (text : Octets) (copied : Nat) : choice.readLength isFile text copied = copied := by
  unfold Choice.readLength
  obtain h | ⟨hbytes, hall⟩ := h
  · rw [if_pos h]
  · simp [hbytes, hall]

end Head

end Bindery.Formatter
