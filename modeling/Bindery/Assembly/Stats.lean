import Bindery.Layout.Unit

/-! What an assembly reports: counts, the reference cycles, and warnings. -/
namespace Bindery

/-- Something that the user should know about the output. -/
inductive Warning where
  /-- Base classes decided the end of the order. -/
  | fallbackOrdering
  /-- Models of a unit need an update that nothing writes. -/
  | deferredUpdatesSkipped (unit : String) (count : Nat)
deriving DecidableEq, Repr

def Warning.text : Warning → String
  | .fallbackOrdering =>
    "Dependency passes exhausted, remaining models were ordered by base class"
  | .deferredUpdatesSkipped unit count =>
    "Unit '" ++ unit ++ "': " ++ toString count ++
      " model(s) need a deferred update but none is rendered"

/-- The figures of an assembly. -/
structure Stats where
  modelsSorted : Nat := 0
  unitsGenerated : Nat := 0
  /-- Units that stand for a directory, placeholders too. -/
  packageUnits : Nat := 0
  placeholderUnits : Nat := 0
  importsEmitted : Nat := 0
  deferredUpdates : Nat := 0
  duplicatesCollapsed : Nat := 0
  fallback : Bool := false
  cycles : List (List String) := []
  warnings : List Warning := []
deriving DecidableEq, Repr, Inhabited

namespace Stats

/-- One more warning. -/
def warn (s : Stats) (w : Warning) : Stats := { s with warnings := s.warnings ++ [w] }

/-- Models that were put in order. -/
def recordSorted (s : Stats) (count : Nat) (fallback : Bool) : Stats :=
  let s := { s with modelsSorted := s.modelsSorted + count }
  if fallback then { s with fallback := true }.warn .fallbackOrdering else s

/-- A unit with models. -/
def recordUnit (s : Stats) (kind : UnitKind) : Stats :=
  { s with
    unitsGenerated := s.unitsGenerated + 1
    packageUnits := s.packageUnits + if kind = .leaf then 0 else 1 }

/-- A unit without models. -/
def recordPlaceholder (s : Stats) : Stats :=
  { s with
    unitsGenerated := s.unitsGenerated + 1
    packageUnits := s.packageUnits + 1
    placeholderUnits := s.placeholderUnits + 1 }

def recordImports (s : Stats) (count : Nat) : Stats :=
  { s with importsEmitted := s.importsEmitted + count }

/-- Models of a unit that need an update, which is written or not. -/
def recordDeferredUpdates (s : Stats) (unit : String) (count : Nat) (rendered : Bool) : Stats :=
  if count = 0 then s
  else if rendered then { s with deferredUpdates := s.deferredUpdates + count }
  else s.warn (.deferredUpdatesSkipped unit count)

def recordDuplicates (s : Stats) (count : Nat) : Stats :=
  { s with duplicatesCollapsed := s.duplicatesCollapsed + count }

def recordCycles (s : Stats) (cycles : List (List String)) : Stats :=
  { s with cycles := s.cycles ++ cycles }

end Stats

end Bindery
