import Bindery.Data.Entries
import Bindery.Json.Basic
import Bindery.Model.DataType
import Bindery.Model.Import

/-! Models: the classes to be written.

A model arrives with its name, namespace, fields and base classes, and with the set of
the models it refers to. Names of that set are qualified names: the namespace and the
model's name with dots between, or the bare name in the root namespace. -/
namespace Bindery

/-- What a model becomes. -/
inductive Kind where
  | composite
  | enumeration
deriving DecidableEq, Repr, Inhabited

def Kind.text : Kind → String
  | .composite => "composite"
  | .enumeration => "enumeration"

/-- A field of a class, or a member of an enumeration. -/
structure Field where
  name : String
  /-- The name under which the data has the field, if that is another one. -/
  wireAlias : Option String := none
  type : DataType
  required : Bool := false
  default : Option Json := none
  description : Option String := none
  /-- An optional field is written without `= None`. -/
  stripDefaultNone : Bool := false
deriving Repr, Inhabited

/-- The name that a field has in the data. -/
def Field.wireName (f : Field) : String := f.wireAlias.getD f.name

/-- Data for templates: keys in increasing order, each with a value. -/
structure TemplateData where
  entries : Entries String Json
  increasing : Increasing (Entries.keys entries)

namespace TemplateData

def empty : TemplateData := ⟨[], .nil⟩

instance : Inhabited TemplateData := ⟨empty⟩

/-- Bind a key in a list with increasing keys. -/
def insertEntry (key : String) (value : Json) : Entries String Json → Entries String Json
  | [] => [(key, value)]
  | (k, v) :: rest =>
    match compare key k with
    | .lt => (key, value) :: (k, v) :: rest
    | .eq => (k, value) :: rest
    | .gt => (k, v) :: insertEntry key value rest

theorem keys_insertEntry (key : String) (value : Json) (entries : Entries String Json) :
    Entries.keys (insertEntry key value entries) = insertIncreasing key (Entries.keys entries) := by
  induction entries with
  | nil => rfl
  | cons entry rest ih =>
    obtain ⟨k, v⟩ := entry
    cases h : compare key k <;> simp_all [insertEntry, insertIncreasing, Entries.keys]

/-- Bind a key; what it was bound to before is gone. -/
def insert (data : TemplateData) (key : String) (value : Json) : TemplateData :=
  ⟨insertEntry key value data.entries, by
    rw [keys_insertEntry]
    exact increasing_insertIncreasing key data.increasing⟩

/-- The data of a list of bindings; of two for one key the last one counts. -/
def ofList (bindings : List (String × Json)) : TemplateData :=
  bindings.foldl (fun data b => data.insert b.1 b.2) empty

/-- The data with a function applied to each value. -/
def mapValues (f : Json → Json) (data : TemplateData) : TemplateData :=
  ⟨data.entries.map fun e => (e.1, f e.2), by
    simpa [Entries.keys, Function.comp_def] using data.increasing⟩

end TemplateData

/-- A model. -/
structure Model where
  name : String
  kind : Kind := .composite
  fields : List Field := []
  bases : List String := []
  /-- Qualified names of the models that this one refers to. -/
  references : SortedSet String := .empty
  /-- Type references that belong to no field. -/
  extraTypes : List DataType := []
  /-- The segments of the namespace. -/
  path : List String := []
  /-- Where the model's schema was read from. -/
  sourceFile : Option String := none
  imports : List Import := []
  description : Option String := none
  templateData : TemplateData := .empty
deriving Inhabited

namespace Model

/-- The namespace, its segments with dots between; empty for the root. -/
def moduleName (m : Model) : String := Text.join "." m.path

/-- The name that a model goes by in the whole graph. -/
def qualifiedName (m : Model) : String :=
  if m.path = [] then m.name else m.moduleName ++ "." ++ m.name

def refersToItself (m : Model) : Bool := m.qualifiedName ∈ m.references

/-- The types that a model names, those of its fields first. -/
def types (m : Model) : List DataType := m.fields.map Field.type ++ m.extraTypes

/-- Every type of a model, parameters after what they belong to. -/
def allTypes (m : Model) : List DataType := DataType.preorders m.types

/-- Rename the types of fields one after the other. -/
def renameFields {σ : Type} (f : σ → DataType → σ × String) : σ → List Field → σ × List Field
  | s, [] => (s, [])
  | s, field :: rest =>
    let (s, type) := DataType.rename f s field.type
    let (s, others) := renameFields f s rest
    (s, { field with type } :: others)

/-- Rename every type of a model, in the order of `allTypes`, with a state. -/
def renameTypes {σ : Type} (f : σ → DataType → σ × String) (s : σ) (m : Model) : σ × Model :=
  let (s, fields) := renameFields f s m.fields
  let (s, extraTypes) := DataType.renameAll f s m.extraTypes
  (s, { m with fields, extraTypes })

/-- What stands for a model that has the structure of another one: an enumeration stays
as it is, a class becomes a subclass of the other with nothing of its own. -/
def asDuplicateOf (canonical : String) (m : Model) : Model :=
  match m.kind with
  | .enumeration => m
  | .composite =>
    { name := m.name
      bases := [canonical]
      path := m.path
      sourceFile := m.sourceFile
      description := m.description }

end Model

end Bindery
