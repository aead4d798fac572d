import Bindery.Layout.Unit
import Bindery.Model.Graph
import Bindery.Reference.LocalNames

/-! Resolving the references of a unit.

A type that lives in another namespace is renamed into what the unit can say: the local
name of an imported namespace with the type's name behind it, or the local name of an
imported model. The reference set of the model follows, and from it come the imports
that the unit needs. Local names are shared by all models of a unit; which import stands
behind a renamed type is remembered for one model at a time. -/
namespace Bindery

/-- What the references of a unit are resolved against. -/
structure UnitScope where
  /-- The unit's namespace. -/
  moduleName : String
  packageInit : Bool
  /-- The bare and the qualified names of the unit's own models. -/
  ownNames : List String
  /-- Where the paths of a schema led to. -/
  index : ReferenceIndex
  /-- The file that everything came from, if it is one. -/
  singleSource : Option String

/-- What the models of a unit have asked for so far. -/
structure UnitNames where
  localNames : LocalNames
  imports : Imports

namespace UnitScope

def ofPlan (plan : UnitPlan) (index : ReferenceIndex) (singleSource : Option String) :
    UnitScope where
  moduleName := plan.moduleName
  packageInit := plan.kind = .packageInit
  ownNames := plan.models.flatMap fun m => [m.name, m.qualifiedName]
  index := index
  singleSource := singleSource

/-- Whether a type was made into this very unit: its path led into the unit's namespace
or into the one file that everything came from. -/
def madeHere (scope : UnitScope) (t : DataType) : Bool :=
  match t.origin.bind scope.index.find? with
  | none => false
  | some r => r.home = scope.moduleName || scope.singleSource = some r.sourceFile

end UnitScope

/-- What is remembered while the types of one model are renamed. -/
structure Renaming where
  localNames : LocalNames
  /-- The reference set of the model. -/
  references : SortedSet String
  /-- The locations that were asked for, with the name they got if it is another one. -/
  chosen : Entries (String × String) (Option String) := []
  /-- Renamed types, with the model that is meant and its import. -/
  targets : Entries String (String × RelativeImport) := []

namespace Renaming

def nameOf (r : Renaming) (i : RelativeImport) : Renaming × String :=
  match r.chosen.lookup i.key with
  | some given => (r, given.getD i.name)
  | none =>
    let (localNames, name) := r.localNames.add i
    let given := if name = i.name then none else some name
    ({ r with localNames, chosen := Entries.put i.key given r.chosen }, name)

/-- The new name of a type that lives elsewhere, given how it is imported. -/
def imported (r : Renaming) (t : DataType) (i : RelativeImport) : Renaming × String :=
  let (r, name) := r.nameOf i
  let name := if i.member then name else name ++ "." ++ t.name
  ({ r with targets := Entries.put name (t.fullName, i) r.targets }, name)

/-- Replace a name in the reference set, if it is there. -/
def replace (r : Renaming) (old new : String) : Renaming :=
  if old ∈ r.references then { r with references := (r.references.erase old).insert new } else r

/-- The new name of a type. One that was made into the unit keeps its name and is no
reference any more; one that names no namespace stays as it is. -/
def rename (scope : UnitScope) (r : Renaming) (t : DataType) : Renaming × String :=
  if !t.isModular then (r, t.name)
  else if scope.madeHere t then
    ({ r with references := r.references.erase t.fullName }, t.name)
  else
    let (r, name) :=
      match relative? scope.moduleName t.fullName with
      | none => (r, t.name)
      | some i => r.imported t i
    (r.replace t.fullName name, name)

/-- The import for a name of the reference set; none for a name of the unit. -/
def importFor? (scope : UnitScope) (r : Renaming) (name : String) : Option Import :=
  if name ∈ scope.ownNames then none
  else do
    let (target, i) ←
      match r.targets.lookup name with
      | some known => some known
      | none => (relative? scope.moduleName name).map fun i => (name, i)
    let source :=
      if scope.packageInit then
        ((relativeFromPackage? scope.moduleName target).map RelativeImport.source).getD i.source
      else i.source
    return ⟨some source, i.name, (r.chosen.lookup i.key).getD none⟩

end Renaming

namespace UnitNames

/-- Nothing asked for yet; the names of the unit's models are taken. -/
def ofPlan (plan : UnitPlan) : UnitNames :=
  ⟨.reserving (plan.models.map Model.name), .empty⟩

/-- Resolve one model: rename its types, and collect its imports. -/
def resolve (scope : UnitScope) (state : UnitNames) (m : Model) : UnitNames × Model :=
  let (r, renamed) :=
    m.renameTypes (Renaming.rename scope) ⟨state.localNames, m.references, [], []⟩
  let needed := r.references.toList.filterMap (r.importFor? scope)
  (⟨r.localNames, (state.imports.insertAll m.imports).insertAll needed⟩,
    { renamed with references := r.references })

def resolveAll (scope : UnitScope) : UnitNames → List Model → UnitNames × List Model
  | state, [] => (state, [])
  | state, m :: rest =>
    let (state, m) := state.resolve scope m
    let (state, others) := state.resolveAll scope rest
    (state, m :: others)

end UnitNames

end Bindery
