import Bindery.Json.Reader
import Bindery.Model.Graph

/-! Reading models from JSON.

Each kind of record says which members it has and which of them must be there; the
rest can be left out. A record may also be given as an array of its values in order.
`levels` is how many arrays and objects may still be opened. -/
namespace Bindery

open Json (Outline Fault)
open Json.Outline (Record)

def Kind.ofText? : String → Option Kind
  | "composite" => some .composite
  | "enumeration" => some .enumeration
  | _ => none

/-- A kind: its name, or an object with the name as its only key, bound to `null`. -/
def Kind.read (levels : Nat) : Outline → Except Fault Kind
  | .string (some name) =>
    match Kind.ofText? name with
    | some kind => .ok kind
    | none => .error .wrongShape
  | .object members closed =>
    match levels, members with
    | _ + 1, (some name, value) :: rest =>
      match Kind.ofText? name, value with
      | none, _ => .error .wrongShape
      | some kind, .null =>
        if rest.isEmpty && closed then .ok kind else .error .notJson
      | some _, value => .error value.unexpected
    | _, _ => .error .notJson
  | _ => .error .notJson

def readTexts (levels : Nat) : Outline → Except Fault (List String) :=
  Outline.list levels fun _ => Outline.text

/-- Where a reference came from. -/
def originRecord : Record String where
  fields := ["path"]
  required := ["path"]
  blank := ""
  set _ outline _ := outline.text

/-- A type, given how its parameters are read. -/
def DataType.record (levels : Nat) (readParameters : Outline → Except Fault (List DataType)) :
    Record DataType where
  fields := ["type", "module_name", "reference", "container", "data_types"]
  required := ["type"]
  blank := { name := "" }
  set
    | "type", o, t => do return { t with name := ← o.text }
    | "module_name", o, t => do return { t with home := ← o.optional Outline.text }
    | "reference", o, t => do
      return { t with origin := ← o.optional (Record.nested levels fun _ => originRecord) }
    | "container", o, t => do return { t with container := ← o.optional Outline.text }
    | "data_types", o, t => do return { t with parameters := ← readParameters o }
    | _, _, t => .ok t

mutual

def DataType.read : Nat → Outline → Except Fault DataType
  | 0, outline => .error outline.blocked
  | levels + 1, outline =>
    (DataType.record levels fun o => DataType.readList levels o).read outline

def DataType.readList : Nat → Outline → Except Fault (List DataType)
  | levels + 1, .array items closed => do
    Outline.ending closed (← items.mapM fun item => DataType.read levels item)
  | 0, .array _ _ => .error .notJson
  | _, outline => .error outline.unexpected

end

def Import.record : Record Import where
  fields := ["from", "import", "alias"]
  required := ["import"]
  blank := { name := "" }
  set
    | "from", o, i => do return { i with source := ← o.optional Outline.text }
    | "import", o, i => do return { i with name := ← o.text }
    | "alias", o, i => do return { i with asName := ← o.optional Outline.text }
    | _, _, i => .ok i

def Field.record (levels : Nat) : Record Field where
  fields := ["name", "alias", "data_type", "required", "default", "description",
    "strip_default_none"]
  required := ["name", "data_type"]
  blank := { name := "", type := { name := "" } }
  set
    | "name", o, f => do return { f with name := ← o.text }
    | "alias", o, f => do return { f with wireAlias := ← o.optional Outline.text }
    | "data_type", o, f => do return { f with type := ← DataType.read levels o }
    | "required", o, f => do return { f with required := ← o.flag }
    | "default", o, f => do return { f with default := ← o.optional (Outline.value levels) }
    | "description", o, f => do return { f with description := ← o.optional Outline.text }
    | "strip_default_none", o, f => do return { f with stripDefaultNone := ← o.flag }
    | _, _, f => .ok f

/-- Data for templates. -/
def TemplateData.read (levels : Nat) : Outline → Except Fault TemplateData
  | .object members closed =>
    match levels with
    | 0 => .error .notJson
    | n + 1 => do
      Outline.ending closed (TemplateData.ofList (← Outline.valueMembers n [] members))
  | outline => .error outline.unexpected

def Model.record (levels : Nat) : Record Model where
  fields := ["name", "kind", "fields", "base_classes", "reference_classes",
    "extra_data_types", "module_path", "source_path", "imports", "description",
    "extra_template_data"]
  required := ["name"]
  blank := { name := "" }
  set
    | "name", o, m => do return { m with name := ← o.text }
    | "kind", o, m => do return { m with kind := ← Kind.read levels o }
    | "fields", o, m => do
      return { m with fields := ← o.list levels fun n => Record.nested n Field.record }
    | "base_classes", o, m => do return { m with bases := ← readTexts levels o }
    | "reference_classes", o, m => do
      return { m with references := .ofList (← readTexts levels o) }
    | "extra_data_types", o, m => do return { m with extraTypes := ← DataType.readList levels o }
    | "module_path", o, m => do return { m with path := ← readTexts levels o }
    | "source_path", o, m => do return { m with sourceFile := ← o.optional Outline.text }
    | "imports", o, m => do
      return { m with imports := ← o.list levels fun n => Record.nested n fun _ => Import.record }
    | "description", o, m => do return { m with description := ← o.optional Outline.text }
    | "extra_template_data", o, m => do
      return { m with templateData := ← TemplateData.read levels o }
    | _, _, m => .ok m

def ResolvedReference.record : Record ResolvedReference where
  fields := ["path", "name", "module_name"]
  required := ["path", "name"]
  blank := { path := "", name := "" }
  set
    | "path", o, r => do return { r with path := ← o.text }
    | "name", o, r => do return { r with name := ← o.text }
    | "module_name", o, r => do return { r with home := ← o.text }
    | _, _, r => .ok r

def ModelGraph.record (levels : Nat) : Record ModelGraph where
  fields := ["models", "references", "global_imports", "source_file"]
  required := ["models"]
  blank := { models := [] }
  set
    | "models", o, g => do
      return { g with models := ← o.list levels fun n => Record.nested n Model.record }
    | "references", o, g => do
      return { g with
        references := ← o.list levels fun n => Record.nested n fun _ => ResolvedReference.record }
    | "global_imports", o, g => do return { g with statements := ← readTexts levels o }
    | "source_file", o, g => do return { g with sourceFile := ← o.optional Outline.text }
    | _, _, g => .ok g

/-- A model at the top of a text. -/
def Model.read (outline : Outline) : Except Fault Model :=
  Record.nested Json.greatestDepth Model.record outline

/-- An import at the top of a text. -/
def Import.read (outline : Outline) : Except Fault Import :=
  Record.nested Json.greatestDepth (fun _ => Import.record) outline

/-- A resolved reference at the top of a text. -/
def ResolvedReference.read (outline : Outline) : Except Fault ResolvedReference :=
  Record.nested Json.greatestDepth (fun _ => ResolvedReference.record) outline

/-- A graph at the top of a text. -/
def ModelGraph.read (outline : Outline) : Except Fault ModelGraph :=
  Record.nested Json.greatestDepth ModelGraph.record outline

/-- The graph that a text stands for. -/
def ModelGraph.parse (text : String) : Except Fault ModelGraph := Json.read ModelGraph.read text

end Bindery
