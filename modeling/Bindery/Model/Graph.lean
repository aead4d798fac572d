import Bindery.Model.Basic
import Bindery.Model.Statement

/-! The graph of models that a schema gave, and where each schema path went. -/
namespace Bindery

/-- The model that a reference path of the schema led to. -/
structure ResolvedReference where
  /-- The whole path: the file, then `#/` and the place in it. -/
  path : String
  name : String
  /-- The namespace in which the model lives. -/
  home : String := ""
deriving DecidableEq, Repr, Inhabited

/-- The file of a reference path. -/
def ResolvedReference.sourceFile (r : ResolvedReference) : String := Text.before "#/" r.path

/-- Resolved references by their paths. -/
abbrev ReferenceIndex : Type := Entries String ResolvedReference

namespace ReferenceIndex

/-- The index with one more reference, which takes the place of one for the same path. -/
def insert (index : ReferenceIndex) (r : ResolvedReference) : ReferenceIndex :=
  Entries.put r.path r index

/-- The index of a list; of two references for one path the last one counts. -/
def ofList (references : List ResolvedReference) : ReferenceIndex :=
  references.foldl insert []

/-- What a path led to. -/
def find? (index : ReferenceIndex) (path : String) : Option ResolvedReference :=
  List.lookup path index

end ReferenceIndex

/-- A graph of models. -/
structure ModelGraph where
  models : List Model
  references : List ResolvedReference := []
  /-- Import statements for every unit. -/
  statements : List String := []
  /-- The one file that everything came from. -/
  sourceFile : Option String := none
deriving Inhabited

namespace ModelGraph

def index (g : ModelGraph) : ReferenceIndex := .ofList g.references

/-- The imports for every unit. -/
def globalImports (g : ModelGraph) : Except StatementsError Imports := Imports.parse g.statements

end ModelGraph

end Bindery
