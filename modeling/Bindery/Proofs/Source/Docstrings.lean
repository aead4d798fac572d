import Bindery.Proofs.Source.Rendering

/-! Where a docstring ends.

Behind three double quotes a text goes on until three of them stand in a row, lines and all; a
backslash takes the next character along, whatever it is (`readDoc?`). A line of a description is
put on a line of its own as it is. Neither an escape nor a row of quotes goes on past the end of a
line, so each line is read on its own (`harmless_append_cons_iff`), and the docstring of a class
ends at the quotes that are written behind it exactly if nothing in the description ends it
(`docstring_closed_iff`). -/
namespace Bindery.Source

/-! ### Texts in three double quotes -/

/-- What opens and closes a docstring. -/
def tripleQuote : List Char := ['\x22', '\x22', '\x22']

/-- What stands behind the opening quotes, up to the closing ones, and what follows those. -/
def readDoc? : List Char → Option (List Char × List Char)
  | [] => none
  | '\\' :: c :: rest => (readDoc? rest).map fun p => ('\\' :: c :: p.1, p.2)
  | '\x22' :: '\x22' :: '\x22' :: rest => some ([], rest)
  | c :: rest => (readDoc? rest).map fun p => (c :: p.1, p.2)

/-- Nothing in the characters closes a docstring. -/
def Harmless (cs : List Char) : Prop := readDoc? cs = none

instance (cs : List Char) : Decidable (Harmless cs) := inferInstanceAs (Decidable (_ = none))

/-- The characters are part of a docstring, and what follows them is read on its own. -/
def Passed (cs : List Char) : Prop :=
  ∀ rest, readDoc? (cs ++ rest) = (readDoc? rest).map fun p => (cs ++ p.1, p.2)

section Reading
variable {c : Char} {cs ds front back inside after : List Char}

theorem harmless_nil : Harmless [] := rfl

theorem Passed.append (h : Passed cs) (h' : Passed ds) : Passed (cs ++ ds) := by
  intro rest
  rw [List.append_assoc, h, h', Option.map_map]
  simp [Function.comp_def]

theorem passed_escape (c : Char) : Passed ['\\', c] := fun rest => by
  show readDoc? ('\\' :: c :: rest) = _
  rw [readDoc?]
  rfl

/-- A character stands for itself, unless it is a backslash or begins a row of three quotes. -/
theorem readDoc?_cons (hslash : c ≠ '\\') (hrow : ∀ rest, c :: cs ≠ tripleQuote ++ rest) :
    readDoc? (c :: cs) = (readDoc? cs).map fun p => (c :: p.1, p.2) := by
  rw [readDoc?]
  · exact fun _ _ h => absurd h hslash
  · rintro rest rfl rfl
    exact hrow rest rfl

theorem passed_singleton (hslash : c ≠ '\\') (hquote : c ≠ '\x22') : Passed [c] := fun _ =>
  readDoc?_cons hslash fun _ h => hquote (List.cons.inj h).1

/-- A row of three quotes at the front of an append stands in the first part, or the first part
is too short for it and the other one begins with a quote. -/
theorem row_cases {more : List Char} (h : c :: (cs ++ ds) = tripleQuote ++ more) :
    (∃ rest, c :: cs = tripleQuote ++ rest) ∨
      ((cs = [] ∨ cs = ['\x22']) ∧ ds.head? = some '\x22') := by
  rw [← List.cons_append, List.append_eq_append_iff] at h
  obtain ⟨row, hrow, rfl⟩ | ⟨rest, hrest, _⟩ := h
  · match cs, hrow with
    | [], hrow =>
      simp only [tripleQuote, List.cons_append, List.nil_append, List.cons.injEq] at hrow
      obtain ⟨_, rfl⟩ := hrow
      exact .inr ⟨.inl rfl, rfl⟩
    | [d], hrow =>
      simp only [tripleQuote, List.cons_append, List.nil_append, List.cons.injEq] at hrow
      obtain ⟨_, rfl, rfl⟩ := hrow
      exact .inr ⟨.inr rfl, rfl⟩
    | d :: e :: rest, hrow =>
      simp only [tripleQuote, List.cons_append, List.cons.injEq] at hrow
      obtain ⟨rfl, rfl, rfl, _⟩ := hrow
      exact .inl ⟨rest, rfl⟩
  · exact .inl ⟨rest, hrest⟩

/-- An end stays where it is, whatever is put behind it. -/
theorem readDoc?_append (h : readDoc? cs = some (inside, after)) (rest : List Char) :
    readDoc? (cs ++ rest) = some (inside, after ++ rest) := by
  induction cs using readDoc?.induct generalizing inside with
  | case1 => cases h
  | case2 c cs ih =>
    rw [readDoc?] at h
    obtain ⟨⟨inside', after'⟩, hread, hpair⟩ := Option.map_eq_some_iff.1 h
    obtain ⟨rfl, rfl⟩ := Prod.mk.inj hpair
    rw [List.cons_append, List.cons_append, readDoc?, ih hread]
    rfl
  | case3 cs =>
    obtain ⟨rfl, rfl⟩ := Prod.mk.inj (Option.some.inj h)
    rfl
  | case4 c cs hslash hquote ih =>
    rw [readDoc?] at h
    · obtain ⟨⟨inside', after'⟩, hread, hpair⟩ := Option.map_eq_some_iff.1 h
      obtain ⟨rfl, rfl⟩ := Prod.mk.inj hpair
      have hnone : ∀ more, c :: (cs ++ rest) ≠ tripleQuote ++ more := by
        intro more hmore
        obtain ⟨row, hrow⟩ | ⟨rfl | rfl, _⟩ := row_cases hmore
        · obtain ⟨rfl, rfl⟩ := List.cons.inj hrow
          exact hquote row rfl rfl
        · cases hread
        · cases hread
      have hnext : c ≠ '\\' := by
        rintro rfl
        match cs, hread with
        | d :: cs, _ => exact hslash d cs rfl rfl
      rw [List.cons_append, readDoc?_cons hnext hnone, ih hread]
      rfl
    · exact hslash
    · exact hquote

theorem eq_of_readDoc? (h : readDoc? cs = some (inside, after)) :
    cs = inside ++ tripleQuote ++ after := by
  induction cs using readDoc?.induct generalizing inside with
  | case1 => cases h
  | case2 c cs ih =>
    rw [readDoc?] at h
    obtain ⟨⟨inside', after'⟩, hread, hpair⟩ := Option.map_eq_some_iff.1 h
    obtain ⟨rfl, rfl⟩ := Prod.mk.inj hpair
    rw [ih hread]
    rfl
  | case3 cs =>
    obtain ⟨rfl, rfl⟩ := Prod.mk.inj (Option.some.inj h)
    rfl
  | case4 c cs hslash hquote ih =>
    rw [readDoc?] at h
    · obtain ⟨⟨inside', after'⟩, hread, hpair⟩ := Option.map_eq_some_iff.1 h
      obtain ⟨rfl, rfl⟩ := Prod.mk.inj hpair
      rw [ih hread]
      rfl
    · exact hslash
    · exact hquote

/-- Behind a character that is no quote and no backslash nothing goes on that began before it. -/
theorem passed_append_singleton (h : Harmless cs) (hslash : c ≠ '\\') (hquote : c ≠ '\x22') :
    Passed (cs ++ [c]) := by
  induction cs using readDoc?.induct with
  | case1 => exact passed_singleton hslash hquote
  | case2 d cs ih =>
    rw [Harmless, readDoc?, Option.map_eq_none_iff] at h
    exact (passed_escape d).append (ih h)
  | case3 cs => cases h
  | case4 d cs hpair hrow ih =>
    rw [Harmless, readDoc?, Option.map_eq_none_iff] at h
    · by_cases hd : d = '\\'
      · -- A backslash at the end takes the character along.
        subst hd
        match cs with
        | [] => exact passed_escape c
        | e :: cs => exact absurd rfl (hpair e cs rfl)
      · intro rest
        have hnone : ∀ more, d :: (cs ++ ([c] ++ rest)) ≠ tripleQuote ++ more := by
          intro more hmore
          obtain ⟨row, hquotes⟩ | ⟨_, hhead⟩ := row_cases hmore
          · obtain ⟨rfl, rfl⟩ := List.cons.inj hquotes
            exact hrow row rfl rfl
          · exact hquote (Option.some.inj hhead)
        have hread := readDoc?_cons hd hnone
        rw [← List.append_assoc, ih h rest, Option.map_map] at hread
        rw [List.cons_append, List.cons_append, hread]
        simp [Function.comp_def]
    · exact hpair
    · exact hrow

/-- What stands in front of such a character and what stands behind it are read each on its own. -/
theorem harmless_append_cons_iff (hslash : c ≠ '\\') (hquote : c ≠ '\x22') :
    Harmless (front ++ c :: back) ↔ Harmless front ∧ Harmless back := by
  constructor
  · intro h
    have hfront : Harmless front := by
      cases hread : readDoc? front with
      | none => exact hread
      | some p =>
        rw [Harmless, readDoc?_append hread] at h
        cases h
    refine ⟨hfront, ?_⟩
    have hpassed := passed_append_singleton hfront hslash hquote back
    rw [List.append_assoc, List.singleton_append] at hpassed
    rwa [Harmless, hpassed, Option.map_eq_none_iff] at h
  · intro ⟨hfront, hback⟩
    have hpassed := passed_append_singleton hfront hslash hquote back
    rw [List.append_assoc, List.singleton_append] at hpassed
    rw [Harmless, hpassed, hback]
    rfl

theorem harmless_cons_iff (hslash : c ≠ '\\') (hquote : c ≠ '\x22') :
    Harmless (c :: back) ↔ Harmless back := by
  have hsplit : Harmless ([] ++ c :: back) ↔ Harmless [] ∧ Harmless back :=
    harmless_append_cons_iff hslash hquote
  exact hsplit.trans (and_iff_right harmless_nil)

theorem harmless_concat_iff (hslash : c ≠ '\\') (hquote : c ≠ '\x22') :
    Harmless (front ++ [c]) ↔ Harmless front :=
  (harmless_append_cons_iff hslash hquote).trans (and_iff_left harmless_nil)

/-- Characters with such a one at their end are all that a docstring holds if and only if nothing
in them closes it. -/
theorem readDoc?_closed_iff (hslash : c ≠ '\\') (hquote : c ≠ '\x22') (after : List Char) :
    readDoc? (cs ++ [c] ++ tripleQuote ++ after) = some (cs ++ [c], after) ↔ Harmless cs := by
  constructor
  · intro h
    cases hread : readDoc? cs with
    | none => exact hread
    | some p =>
      obtain ⟨inside, rest⟩ := p
      rw [List.append_assoc, List.append_assoc, readDoc?_append hread] at h
      have hshort := congrArg List.length (eq_of_readDoc? hread)
      have hlong := congrArg List.length (Prod.mk.inj (Option.some.inj h)).1
      simp only [List.length_append, List.length_singleton] at hshort hlong
      omega
  · intro h
    rw [List.append_assoc, passed_append_singleton h hslash hquote]
    simp [tripleQuote, readDoc?]

end Reading

/-! ### Lines -/

section Lines
variable {texts : List String}

/-- Texts with line feeds between them are read each on its own. -/
theorem harmless_join_iff (hne : texts ≠ []) :
    Harmless (Text.join "\n" texts).toList ↔ ∀ text ∈ texts, Harmless text.toList := by
  induction texts with
  | nil => exact absurd rfl hne
  | cons text rest ih =>
    by_cases hrest : rest = []
    · subst hrest
      rw [List.forall_mem_singleton]
      rfl
    · rw [Text.join_cons hrest, List.forall_mem_cons, ← ih hrest, String.toList_append,
        String.toList_append, List.append_assoc]
      exact harmless_append_cons_iff (by decide) (by decide)

/-- So is each of them with a line feed behind it. -/
theorem harmless_flatMap_iff {back : List Char} :
    Harmless (texts.flatMap (fun text => text.toList ++ ['\n']) ++ back) ↔
      (∀ text ∈ texts, Harmless text.toList) ∧ Harmless back := by
  induction texts with
  | nil => exact (and_iff_right nofun).symm
  | cons text rest ih =>
    rw [List.flatMap_cons, List.append_assoc, List.append_assoc, List.singleton_append,
      harmless_append_cons_iff (by decide) (by decide), ih, List.forall_mem_cons, and_assoc]

/-- A carriage return that ends a line with the line feed makes no difference. -/
theorem harmless_dropReturn_iff (line : String) :
    Harmless (Text.dropReturn line).toList ↔ Harmless line.toList := by
  unfold Text.dropReturn
  split
  · next rest hreverse =>
    have hline : line.toList = rest.reverse ++ ['\r'] := by
      rw [← List.reverse_reverse line.toList, hreverse, List.reverse_cons]
    rw [String.toList_ofList, hline, harmless_concat_iff (by decide) (by decide)]
  · rfl

theorem harmless_endedLines_iff (pieces : List String) :
    (∀ line ∈ Text.endedLines pieces, Harmless line.toList) ↔
      ∀ piece ∈ pieces, Harmless piece.toList := by
  induction pieces using Text.endedLines.induct with
  | case1 => rfl
  | case2 => simp [Text.endedLines, harmless_nil]
  | case3 last h => simp [Text.endedLines, h]
  | case4 line next rest ih =>
    rw [Text.endedLines, List.forall_mem_cons, List.forall_mem_cons, ih, harmless_dropReturn_iff]

/-- **A text is harmless if and only if all its lines are.** -/
theorem harmless_lines_iff (text : String) :
    (∀ line ∈ Text.lines text, Harmless line.toList) ↔ Harmless text.toList := by
  have hjoin := Text.join_pieces '\n' text
  rw [Text.lines, harmless_endedLines_iff, ← harmless_join_iff (Text.pieces_ne_nil '\n' text)]
  conv_rhs => rw [← hjoin]
  rfl

theorem harmless_indent_iff {cs : List Char} : Harmless (indent.toList ++ cs) ↔ Harmless cs := by
  show Harmless (' ' :: ' ' :: ' ' :: ' ' :: cs) ↔ _
  have hblank : ∀ cs, Harmless (' ' :: cs) ↔ Harmless cs := fun cs =>
    harmless_cons_iff (by decide) (by decide)
  rw [hblank, hblank, hblank, hblank]

theorem harmless_docLine_iff (line : String) :
    Harmless (docLine line).toList ↔ Harmless line.toList := by
  unfold docLine
  split
  · next h => rw [h]
  · rw [String.toList_append, harmless_indent_iff]

end Lines

/-! ### Docstrings of classes -/

/-- What stands between the quotes of a docstring: the lines of the description, each on a line of
its own, and the indentation of the closing quotes. -/
def docInside (description : String) : List Char :=
  '\n' :: (((Text.lines description).map docLine).flatMap (fun line => line.toList ++ ['\n']) ++
    indent.toList)

/-- The header of a class, up to the quotes that open its docstring. -/
def docFront (m : Model) : List Char :=
  ("class " ++ m.name ++ "(" ++ basesText m ++ "):\n" ++ indent).toList

/-- The lines behind the quotes that close the docstring of a class. -/
def docBack (m : Model) : List Char :=
  (if m.fields.isEmpty then [] else ['\n']) ++ bodyChars m.kind m.fields

/-- A line feed in front of each line, or one behind each. -/
theorem feeds_turned (lines : List String) :
    (lines.flatMap fun line => '\n' :: line.toList) ++ ['\n'] =
      '\n' :: lines.flatMap fun line => line.toList ++ ['\n'] := by
  induction lines with
  | nil => rfl
  | cons line rest ih =>
    rw [List.flatMap_cons, List.append_assoc, ih, List.flatMap_cons]
    simp

/-- The docstring of a class, line after line. -/
theorem docstring_flatMap (description : String) :
    ((docstring description).flatMap fun line => '\n' :: line.toList) =
      '\n' :: indent.toList ++ tripleQuote ++ docInside description ++ tripleQuote := by
  have hquotes : [indent ++ "\"\"\""].flatMap (fun line => '\n' :: line.toList) =
      ['\n'] ++ (indent.toList ++ tripleQuote) := rfl
  rw [docstring, List.flatMap_append, List.flatMap_append, hquotes, docInside, List.append_assoc,
    ← List.append_assoc _ ['\n'], feeds_turned]
  simp

/-- A class with a description is its header, its docstring and its fields. -/
theorem toList_classText_of_description {m : Model} {description : String}
    (hdescription : m.description = some description) (hne : description ≠ "") :
    (classText m).toList =
      docFront m ++ tripleQuote ++ docInside description ++ tripleQuote ++ docBack m := by
  have hlines : frontLines m = ("class " ++ m.name ++ "(" ++ basesText m ++ "):") ::
      (docstring description ++ if m.fields.isEmpty then [] else [""]) := by
    unfold frontLines
    rw [hdescription, Option.getD_some]
    exact congrArg _ (if_neg hne)
  have hgap : (if m.fields.isEmpty then [] else [""]).flatMap
      (fun line : String => '\n' :: line.toList) = if m.fields.isEmpty then [] else ['\n'] := by
    split <;> rfl
  have hfeed : ∀ line : String, "\n".toList ++ line.toList = '\n' :: line.toList := fun _ => rfl
  rw [toList_classText, hlines, Text.toList_join_cons]
  simp only [hfeed, List.flatMap_append, hgap, docstring_flatMap, docFront, docBack,
    String.toList_append]
  simp

/-- **When a docstring is closed by its own quotes.** The text of a class with a description is
its header up to three double quotes, what stands between the quotes, the quotes that are written
behind the last line, and the fields. Whatever the model and its fields, what Python reads from
the opening quotes on ends at those quotes, and all that stands in front of them is inside, if and
only if the description holds no three double quotes in a row, where a backslash takes the next
character along. -/
theorem docstring_closed_iff {m : Model} {description : String}
    (hdescription : m.description = some description) (hne : description ≠ "") :
    (classText m).toList =
        docFront m ++ tripleQuote ++ (docInside description ++ tripleQuote ++ docBack m) ∧
      (readDoc? (docInside description ++ tripleQuote ++ docBack m) =
        some (docInside description, docBack m) ↔ Harmless description.toList) := by
  constructor
  · rw [toList_classText_of_description hdescription hne]
    simp only [List.append_assoc]
  · have hblank : docInside description =
        '\n' :: (((Text.lines description).map docLine).flatMap
          (fun line => line.toList ++ ['\n']) ++ [' ', ' ', ' ']) ++ [' '] := by
      simp [docInside, indent]
    rw [hblank, readDoc?_closed_iff (by decide) (by decide),
      harmless_cons_iff (by decide) (by decide), harmless_flatMap_iff, List.forall_mem_map]
    simp only [harmless_docLine_iff, harmless_lines_iff]
    exact and_iff_left (by decide)

/-- A class without fields. -/
def noteModel (description : String) : Model where
  name := "Note"
  description := some description

/-- Quotes behind a backslash, two in a row, and a row that a line feed divides. -/
theorem docstring_closed_of_escaped :
    let description := "\\\"\"\" \"\"\n\" end"
    (noteModel description).description = some description ∧ description ≠ "" ∧
      Harmless description.toList ∧
      readDoc? (docInside description ++ tripleQuote ++ docBack (noteModel description)) =
        some (docInside description, docBack (noteModel description)) := by
  intro description
  have hharmless : Harmless description.toList := by decide
  have hclosed := docstring_closed_iff (m := noteModel description) rfl (by decide)
  exact ⟨rfl, by decide, hharmless, hclosed.2.2 hharmless⟩

/-- Three quotes at the front of a description close the docstring, and the rest of the line is
read as code. -/
theorem docstring_not_closed_of_quotes :
    let description := "\"\"\"; import os"
    (noteModel description).description = some description ∧ description ≠ "" ∧
      classText (noteModel description) =
        "class Note(BaseModel):\n    \"\"\"\n    \"\"\"; import os\n    \"\"\"" ∧
      (classText (noteModel description)).toList = docFront (noteModel description) ++
        tripleQuote ++ (docInside description ++ tripleQuote ++ docBack (noteModel description)) ∧
      readDoc? (docInside description ++ tripleQuote ++ docBack (noteModel description)) =
        some ("\n    ".toList, "; import os\n    \"\"\"".toList) := by
  decide

end Bindery.Source
