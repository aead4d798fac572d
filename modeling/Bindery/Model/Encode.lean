import Bindery.Model.Graph

/-! Models as JSON values.

A member that says nothing is left out of fields, types and imports, while a model
shows all of its members. -/
namespace Bindery

/-- A member that is there only if it has a value. -/
def Json.given {α : Type} (key : String) (encode : α → Json) : Option α → List (String × Json)
  | some a => [(key, encode a)]
  | none => []

/-- A value or `null`. -/
def Json.orNull {α : Type} (encode : α → Json) : Option α → Json
  | some a => encode a
  | none => .null

def Json.texts (texts : List String) : Json := .array (texts.map .string)

mutual

def DataType.toJson : DataType → Json
  | ⟨name, home, origin, container, parameters⟩ =>
    .object (("type", .string name) :: (Json.given "module_name" .string home ++
      Json.given "reference" (fun path => .object [("path", .string path)]) origin ++
      Json.given "container" .string container ++
      match parameters with
      | [] => []
      | p :: ps => [("data_types", .array (p.toJson :: DataType.listToJson ps))]))

def DataType.listToJson : List DataType → List Json
  | [] => []
  | t :: rest => t.toJson :: DataType.listToJson rest

end

def Import.toJson (i : Import) : Json :=
  .object (Json.given "from" .string i.source ++ [("import", .string i.name)] ++
    Json.given "alias" .string i.asName)

def Field.toJson (f : Field) : Json :=
  .object ([("name", .string f.name)] ++ Json.given "alias" .string f.wireAlias ++
    [("data_type", f.type.toJson), ("required", .bool f.required)] ++
    Json.given "default" id f.default ++ Json.given "description" .string f.description ++
    [("strip_default_none", .bool f.stripDefaultNone)])

def Model.toJson (m : Model) : Json :=
  .object [
    ("name", .string m.name),
    ("kind", .string m.kind.text),
    ("fields", .array (m.fields.map Field.toJson)),
    ("base_classes", Json.texts m.bases),
    ("reference_classes", Json.texts m.references.toList),
    ("extra_data_types", .array (DataType.listToJson m.extraTypes)),
    ("module_path", Json.texts m.path),
    ("source_path", Json.orNull .string m.sourceFile),
    ("imports", .array (m.imports.map Import.toJson)),
    ("description", Json.orNull .string m.description),
    ("extra_template_data", .object m.templateData.entries)]

def ResolvedReference.toJson (r : ResolvedReference) : Json :=
  .object [("path", .string r.path), ("name", .string r.name), ("module_name", .string r.home)]

def ModelGraph.toJson (g : ModelGraph) : Json :=
  .object [
    ("models", .array (g.models.map Model.toJson)),
    ("references", .array (g.references.map ResolvedReference.toJson)),
    ("global_imports", Json.texts g.statements),
    ("source_file", Json.orNull .string g.sourceFile)]

end Bindery
