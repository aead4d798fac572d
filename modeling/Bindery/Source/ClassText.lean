import Bindery.Model.Basic
import Bindery.Source.Literal
import Bindery.Text.Lines

/-! The source text of a model.

A composite model is a class with an annotated field for each of its fields, an
enumeration a class with an assignment for each member. A model without base classes
gets the one for its kind. `classImports` are the names that the text relies on. -/
namespace Bindery.Source

/-- One level of indentation. -/
def indent : String := "    "

/-- The base class of a model without any. -/
def defaultBase : Kind → String
  | .composite => "BaseModel"
  | .enumeration => "Enum"

/-- What stands in the parentheses of the header. -/
def basesText (m : Model) : String :=
  if m.bases.isEmpty then defaultBase m.kind else Text.join ", " m.bases

def annotation (f : Field) : String :=
  if f.required then f.type.hint else "Optional[" ++ f.type.hint ++ "]"

/-- The default of a field, if one is written. A required field that has another name in
the data needs one for its `Field(...)`. -/
def defaultText (f : Field) : Option String :=
  match f.default with
  | some value => some (literal value)
  | none =>
    if f.required then f.wireAlias.map fun _ => "..."
    else if f.stripDefaultNone then none
    else some "None"

def fieldLine (f : Field) : String :=
  let head := f.name ++ ": " ++ annotation f
  match f.wireAlias, defaultText f with
  | some wire, some value => head ++ " = Field(" ++ value ++ ", alias=" ++ quoted wire ++ ")"
  | some wire, none => head ++ " = Field(alias=" ++ quoted wire ++ ")"
  | none, some value => head ++ " = " ++ value
  | none, none => head

/-- The line of a member of an enumeration; its value is its name unless given. -/
def memberLine (f : Field) : String :=
  f.name ++ " = " ++ (f.default.map literal).getD (quoted f.name)

def bodyLines (m : Model) : List String :=
  match m.kind with
  | .composite => m.fields.map fieldLine
  | .enumeration => m.fields.map memberLine

/-- A line of a docstring; an empty one is not indented. -/
def docLine (line : String) : String := if line = "" then "" else indent ++ line

def docstring (description : String) : List String :=
  [indent ++ "\"\"\""] ++ (Text.lines description).map docLine ++ [indent ++ "\"\"\""]

def classText (m : Model) : String :=
  let header := "class " ++ m.name ++ "(" ++ basesText m ++ "):"
  let body := (bodyLines m).map (indent ++ ·)
  let description := m.description.getD ""
  let rest :=
    if description = "" then
      if body.isEmpty then [indent ++ "pass"] else body
    else if body.isEmpty then docstring description
    else docstring description ++ [""] ++ body
  Text.join "\n" (header :: rest)

/-- The names that the text of a model relies on. -/
def classImports (m : Model) : List Import :=
  (if m.bases.isEmpty then
    [match m.kind with
      | .composite => { source := some "pydantic", name := defaultBase .composite }
      | .enumeration => { source := some "enum", name := defaultBase .enumeration }]
  else []) ++
    match m.kind with
    | .enumeration => []
    | .composite =>
      (if m.fields.any fun f => !f.required then
        [{ source := some "typing", name := "Optional" }] else []) ++
      (if m.fields.any fun f => f.wireAlias.isSome then
        [{ source := some "pydantic", name := "Field" }] else [])

/-- The statements that complete models which were written before a reference of theirs. -/
def deferredUpdates (names : List String) : String :=
  Text.join "\n" (names.map fun name => name ++ ".update_forward_refs()")

end Bindery.Source
