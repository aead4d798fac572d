import Bindery.Layout.Unit

/-! Which model goes into which file.

Models are grouped by namespace, and the namespaces are taken in decreasing order, so
that those below a namespace come before it. Each one leaves a placeholder in every
directory above it that has none, and so a namespace whose own place is taken by then
has others below it. The models of a unit keep their order. -/
namespace Bindery

/-- The places of a package, in the order in which they were taken. -/
abbrev Partition : Type := Entries UnitKey Slot

namespace Partition

/-- The namespaces of models, each once, in decreasing order. -/
def paths (models : List Model) : List (List String) :=
  (SortedSet.ofList (models.map Model.path)).toList.reverse

def modelsAt (models : List Model) (path : List String) : List Model :=
  models.filter (·.path = path)

/-- The namespaces above a path, the root first. -/
def ancestors (path : List String) : List (List String) :=
  (List.range path.length).map fun depth => path.take depth

/-- Take the places above a path that are free. -/
def addAncestors (slots : Partition) (path : List String) : Partition :=
  (ancestors path).foldl (fun slots p => Entries.putNew (UnitKey.init p) .placeholder slots) slots

/-- The key and kind of a namespace, once those below it and the places above it are
known. -/
def placeOf (slots : Partition) (path : List String) : UnitKey × UnitKind :=
  match path.getLast? with
  | none => (UnitKey.root, .rootInit)
  | some last =>
    if Entries.has (UnitKey.init path) slots then (UnitKey.init path, .packageInit)
    else (UnitKey.leaf path.dropLast last, .leaf)

/-- Add the unit of a namespace. -/
def add (models : List Model) (slots : Partition) (path : List String) : Partition :=
  let slots := slots.addAncestors path
  let (key, kind) := slots.placeOf path
  Entries.put key (.planned ⟨key, path, kind, modelsAt models path⟩) slots

def ofModels (models : List Model) : Partition := (paths models).foldl (add models) []

/-- What stands at a key. -/
def find? (slots : Partition) (key : UnitKey) : Option Slot := List.lookup key slots

end Partition

end Bindery
