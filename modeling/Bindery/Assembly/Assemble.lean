import Bindery.Assembly.Stats
import Bindery.Layout.Partition
import Bindery.Model.Preparation
import Bindery.Order.Cycles
import Bindery.Order.Sort
import Bindery.Reference.Resolver
import Bindery.Reuse.Deduplicator
import Bindery.Source.ClassText

/-! From a graph of models to the text of each unit.

The models are prepared, put in order and parted into units; then each unit's references
are resolved, its duplicates are collapsed if that is asked for, and its text is put
together from the imports, the models and the deferred updates. How a model is written
and what is done to the finished text is up to an `Assembler`. -/
namespace Bindery

/-- The switches of an assembly. -/
structure AssemblyOptions where
  /-- Write each structure of a unit once. -/
  reuseModels : Bool := false
  /-- Begin each unit with its imports. -/
  withImports : Bool := true
  snakeCaseFields : Bool := false
  stripDefaultNone : Bool := false
  /-- Imports for every unit. -/
  globalImports : Imports := .empty
  /-- The one file that everything came from. -/
  singleSource : Option String := none
deriving Inhabited

/-- How a model is written, and the imports that its text relies on. -/
structure Renderer where
  body : Model → String
  imports : Model → List Import

def Renderer.classes : Renderer := ⟨Source.classText, Source.classImports⟩

/-- Everything that an assembly works with. `ε` are the failures of the formatter. -/
structure Assembler (ε : Type) where
  options : AssemblyOptions := {}
  passes : Nat := defaultPasses
  /-- Where the paths of a schema led to. -/
  index : ReferenceIndex := []
  renderer : Renderer := .classes
  /-- What is done to the text of each unit. -/
  format : Option (String → Except ε String) := none
  /-- How deferred updates are written. -/
  deferred : Option (List String → String) := none

/-- Why there is no output. -/
inductive AssemblyError (ε : Type) where
  /-- Some references are to nothing. -/
  | unresolved (models : List Unresolved)
  /-- A model with a value that has no canonical text. -/
  | noKey
  | formatter (cause : ε)

/-- What an error says, given what the failures of the formatter say. -/
def AssemblyError.message {ε : Type} (ofCause : ε → String) : AssemblyError ε → String
  | .unresolved models => Unresolved.message models
  | .noKey => noCanonicalText
  | .formatter cause => ofCause cause

/-- A finished unit. -/
structure GeneratedUnit where
  body : String := ""
  /-- Where the schema of the first model was read from. -/
  sourceFile : Option String := none
deriving DecidableEq, Repr, Inhabited

/-- The finished units. -/
inductive AssemblyOutput where
  /-- Everything was in the root namespace. -/
  | single (text : String)
  | modules (units : Entries UnitKey GeneratedUnit)

namespace AssemblyOutput

def unit? : AssemblyOutput → UnitKey → Option GeneratedUnit
  | .single _, _ => none
  | .modules units, key => List.lookup key units

def size : AssemblyOutput → Nat
  | .single _ => 1
  | .modules units => units.length

/-- The output for finished units: a package, unless its root is all there is. -/
def ofUnits : Entries UnitKey GeneratedUnit → AssemblyOutput
  | [(key, unit)] => if key = UnitKey.root then .single unit.body else .modules [(key, unit)]
  | units => .modules units

end AssemblyOutput

/-- The parts of an import section: the unit's own imports below those from the future
module, then the global ones. -/
def importSections (own global : Imports) : List String :=
  let (future, own) := own.takeModule Imports.futureModule
  let (globalFuture, global) := global.takeModule Imports.futureModule
  let future := future.insertAll globalFuture.toList
  [Text.join "\n" ([Imports.text future, Imports.text own].filter (· ≠ "")),
    Imports.text global, "\n"]

namespace Assembler
variable {ε : Type} (a : Assembler ε)

/-- The bare names of the models of a unit that need a deferred update. -/
def deferredNames (requireUpdate : List String) (models : List Model) : List String :=
  (models.filter fun m => m.qualifiedName ∈ requireUpdate).map Model.name

/-- The models of a unit as they are to be written, without duplicates if that is asked
for, and how many duplicates there were. -/
def collapse (models : List Model) : Except (AssemblyError ε) (List Model × Nat) :=
  if a.options.reuseModels then
    match Deduplicator.processAll? {} models with
    | none => .error .noKey
    | some (d, models) => .ok (models.map d.redirect, d.collapsed)
  else .ok (models, 0)

def unitText (imports : Imports) (models : List Model) (deferred : List String) : String :=
  let sections :=
    if a.options.withImports then importSections imports a.options.globalImports else []
  let bodies := Text.join "\n\n\n" (models.map a.renderer.body)
  let updates :=
    match a.deferred with
    | some write => ["\n", write deferred]
    | none => []
  Text.join "\n" (sections ++ [bodies] ++ updates)

def formatText (text : String) : Except (AssemblyError ε) String :=
  match a.format with
  | none => .ok text
  | some format =>
    match format text with
    | .ok text => .ok text
    | .error cause => .error (.formatter cause)

def assembleUnit (requireUpdate : List String) (stats : Stats) (plan : UnitPlan) :
    Except (AssemblyError ε) (Stats × GeneratedUnit) := do
  let deferred := deferredNames requireUpdate plan.models
  let scope := UnitScope.ofPlan plan a.index a.options.singleSource
  let (names, resolved) := (UnitNames.ofPlan plan).resolveAll scope plan.models
  let (models, collapsed) ← a.collapse resolved
  let imports := names.imports.insertAll (models.flatMap a.renderer.imports)
  let stats := stats.recordDuplicates collapsed
  let stats := if a.options.withImports then stats.recordImports imports.size else stats
  let stats := stats.recordDeferredUpdates plan.key.text deferred.length a.deferred.isSome
  let body ← a.formatText (a.unitText imports models deferred)
  return (stats, ⟨body, models.head?.bind Model.sourceFile⟩)

def assembleSlot (requireUpdate : List String) (stats : Stats) :
    Slot → Except (AssemblyError ε) (Stats × GeneratedUnit)
  | .placeholder => .ok (stats.recordPlaceholder, {})
  | .planned plan => a.assembleUnit requireUpdate (stats.recordUnit plan.kind) plan

/-- Assemble the places of a package, one after the other. -/
def assembleSlots (requireUpdate : List String) : Stats → List (UnitKey × Slot) →
    Except (AssemblyError ε) (Stats × Entries UnitKey GeneratedUnit)
  | stats, [] => .ok (stats, [])
  | stats, (key, slot) :: rest => do
    let (stats, unit) ← a.assembleSlot requireUpdate stats slot
    let (stats, units) ← assembleSlots requireUpdate stats rest
    return (stats, (key, unit) :: units)

def assemble (models : List Model) : Except (AssemblyError ε) (Stats × AssemblyOutput) := do
  let collector := Collector.forSwitches a.options.snakeCaseFields a.options.stripDefaultNone
  let models := (collector.registerAll models).models
  let stats : Stats := {}
  let stats := stats.recordCycles (detectCycles models)
  match sortModels a.passes models with
  | .error unresolved => .error (.unresolved unresolved)
  | .ok placed =>
    let stats := stats.recordSorted placed.models.length placed.fallback
    let slots := Partition.ofModels (Entries.values placed.models)
    let (stats, units) ← a.assembleSlots placed.requireUpdate stats slots
    return (stats, .ofUnits units)

end Assembler

end Bindery
