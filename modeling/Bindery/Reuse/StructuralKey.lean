import Bindery.Json.Canonical
import Bindery.Model.Encode

/-! When two models have the same structure.

The structure of a model is its base classes, its fields and its template data; its name
and namespace are no part of it. The key of a structure is its canonical text, so the
order of keys inside free-form values makes no difference and the order of fields does. -/
namespace Bindery

def Model.structureJson (m : Model) : Json :=
  .object [
    ("base_classes", Json.texts m.bases),
    ("extra_template_data", .object m.templateData.entries),
    ("fields", .array (m.fields.map Field.toJson))]

/-- The key of a model's structure; none if a value in it has no canonical text. -/
def Model.structuralKey? (m : Model) : Option String := m.structureJson.canonical?

/-- The wording for a model without a key. -/
def noCanonicalText : String := "Failed to create canonical JSON string"

end Bindery
