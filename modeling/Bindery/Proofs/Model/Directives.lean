import Bindery.Model.Statement
import Bindery.Proofs.Text.Words

/-! Import statements read and written.

A statement spells an import in one of four ways (`Spells`), and any word will do for a name, also
`from`, `import` and `as`. A text is read as an import exactly if its words spell it, the statement
of an import is made of these words, and so reading it gives the import back (`statement_reread`). -/
namespace Bindery
open Text

namespace Import

/-- Words that spell an import. -/
inductive Spells : List String → Import → Prop where
  | plain (name : String) : Spells ["import", name] ⟨none, name, none⟩
  | plainAs (name given : String) : Spells ["import", name, "as", given] ⟨none, name, some given⟩
  | joint (source name : String) :
      Spells ["from", source, "import", name] ⟨some source, name, none⟩
  | jointAs (source name given : String) :
      Spells ["from", source, "import", name, "as", given] ⟨some source, name, some given⟩

/-- What an import names are words. -/
structure OfWords (i : Import) : Prop where
  source : ∀ source ∈ i.source, IsWord source
  name : IsWord i.name
  asName : ∀ given ∈ i.asName, IsWord given

/-! ### Reading -/

section Reading
variable {i : Import} {names : List String} {source : Option String} {statement : String}

/-- The words in front of the names tell the source, those behind them the import. -/
theorem spells_of_ofNames? (h : ofNames? source names = some i) :
    Spells ((source.elim [] fun source => ["from", source]) ++ "import" :: names) i := by
  unfold ofNames? at h
  split at h
  · next name =>
    cases h
    cases source with
    | none => exact .plain name
    | some source => exact .joint source name
  · next name given =>
    cases h
    cases source with
    | none => exact .plainAs name given
    | some source => exact .jointAs source name given
  · cases h

theorem spells_of_parse (h : parse statement = .ok i) : Spells (words statement) i := by
  unfold parse at h
  split at h
  · next source names hwords =>
    split at h
    · next i' hnames =>
      cases h
      exact hwords ▸ spells_of_ofNames? hnames
    · cases h
  · next names hwords =>
    split at h
    · next i' hnames =>
      cases h
      exact hwords ▸ spells_of_ofNames? hnames
    · cases h
  · cases h

/-- **A text is read as the import that its words spell**, and as nothing if they spell none. -/
theorem parse_eq_ok_iff : parse statement = .ok i ↔ Spells (words statement) i := by
  refine ⟨spells_of_parse, fun h => ?_⟩
  generalize hwords : words statement = ws at h
  rw [parse, hwords]
  cases h with
  | plain name => rfl
  | plainAs name given => rfl
  | joint source name => rfl
  | jointAs source name given => rfl

end Reading

/-! ### Writing -/

section Writing
variable {i : Import} {ws : List String}

theorem Spells.text_eq (h : Spells ws i) : i.text = join " " ws := by
  cases h <;> apply String.ext <;> simp [text, nameText, join]

theorem exists_spells (i : Import) : ∃ ws, Spells ws i := by
  obtain ⟨_ | source, name, _ | given⟩ := i
  · exact ⟨_, .plain name⟩
  · exact ⟨_, .plainAs name given⟩
  · exact ⟨_, .joint source name⟩
  · exact ⟨_, .jointAs source name given⟩

/-- The keywords of a statement are words as well. -/
theorem Spells.isWord (h : Spells ws i) (hi : i.OfWords) : ∀ w ∈ ws, IsWord w := by
  have hfrom : IsWord "from" := by decide
  have himport : IsWord "import" := by decide
  have has : IsWord "as" := by decide
  cases h with
  | plain name => simpa [himport] using hi.name
  | plainAs name given => simpa [himport, has] using ⟨hi.name, hi.asName given rfl⟩
  | joint source name => simpa [hfrom, himport] using ⟨hi.source source rfl, hi.name⟩
  | jointAs source name given =>
    simpa [hfrom, himport, has] using ⟨hi.source source rfl, hi.name, hi.asName given rfl⟩

end Writing

end Import

open Import

/-- **Statements are read as they are written.** If all that an import names are words, its
statement is read as this import. Every text has one list of words, and it is read as an import
exactly if they spell this import in one of the four ways; then the statement of the import is these
words with single spaces between them. -/
theorem statement_reread :
    (∀ i : Import, i.OfWords → Import.parse i.text = .ok i) ∧
      ∀ statement : String, (∀ ws, Spaced ws statement.toList ↔ words statement = ws) ∧
        ∀ i, (Import.parse statement = .ok i ↔ Spells (words statement) i) ∧
          (Import.parse statement = .ok i → i.text = join " " (words statement)) := by
  refine ⟨fun i hi => ?_, fun statement => ⟨fun ws => spaced_iff, fun i => ⟨parse_eq_ok_iff,
    fun h => (spells_of_parse h).text_eq⟩⟩⟩
  obtain ⟨ws, hspells⟩ := exists_spells i
  rw [parse_eq_ok_iff, hspells.text_eq, words_join (hspells.isWord hi)]
  exact hspells

/-- Keywords as names, and a statement between blanks of several kinds. -/
theorem statement_reread_of_keywords :
    let i : Import := { source := some "import", name := "from", asName := some "as" }
    i.OfWords ∧ i.text = "from import import from as as" ∧ Import.parse i.text = .ok i ∧
      words "\tfrom import\u00a0 import\nfrom as as\u2003" =
        ["from", "import", "import", "from", "as", "as"] ∧
      Import.parse "\tfrom import\u00a0 import\nfrom as as\u2003" = .ok i := by
  intro i
  have hwords : i.OfWords := by
    refine ⟨?_, by decide, ?_⟩
    · rintro _ ⟨⟩
      decide
    · rintro _ ⟨⟩
      decide
  have hspaced : words "\tfrom import\u00a0 import\nfrom as as\u2003" =
      ["from", "import", "import", "from", "as", "as"] := by decide
  obtain ⟨hreread, hread⟩ := statement_reread
  refine ⟨hwords, by decide, hreread i hwords, hspaced, ((hread _).2 i).1.2 ?_⟩
  rw [hspaced]
  exact .jointAs "import" "from" "as"

end Bindery
