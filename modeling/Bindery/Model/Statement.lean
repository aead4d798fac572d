import Bindery.Model.Import
import Bindery.Text.Blank

/-! Import statements as text.

A statement is read word by word: `import X`, `from M import X`, each with or without
`as Y`. Any word will do for a name, keywords too. -/
namespace Bindery

/-- Why a statement is refused. -/
inductive StatementError where
  /-- It starts like no import. -/
  | form (statement : String)
  /-- It does not name exactly one thing. -/
  | names (statement : String)
deriving DecidableEq, Repr

def StatementError.message : StatementError → String
  | .form statement =>
    "Invalid import statement '" ++ statement ++
      "': expected `import X` or `from M import X`"
  | .names statement =>
    "Invalid import statement '" ++ statement ++ "': expected a single imported name"

namespace Import

/-- The words after `import`: a name, and the name it gets. -/
def ofNames? (source : Option String) : List String → Option Import
  | [name] => some ⟨source, name, none⟩
  | [name, "as", given] => some ⟨source, name, some given⟩
  | _ => none

def parse (statement : String) : Except StatementError Import :=
  match Text.words statement with
  | "from" :: source :: "import" :: names =>
    match ofNames? (some source) names with
    | some i => .ok i
    | none => .error (.names statement)
  | "import" :: names =>
    match ofNames? none names with
    | some i => .ok i
    | none => .error (.names statement)
  | _ => .error (.form statement)

end Import

/-- A statement in a list of statements that was refused. -/
structure StatementsError where
  statement : String
  cause : StatementError
deriving DecidableEq, Repr

def StatementsError.message (e : StatementsError) : String :=
  "Failed to parse global import '" ++ e.statement ++ "'"

namespace Imports

/-- Add the import of each statement; the first bad statement ends it. -/
def parseInto : Imports → List String → Except StatementsError Imports
  | imports, [] => .ok imports
  | imports, statement :: rest =>
    match Import.parse statement with
    | .ok i => parseInto (imports.insert i) rest
    | .error cause => .error ⟨statement, cause⟩

def parse (statements : List String) : Except StatementsError Imports :=
  parseInto .empty statements

end Imports

end Bindery
