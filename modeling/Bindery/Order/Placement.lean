import Bindery.Model.Basic

/-! Placing models one after the other.

A model can be placed once every model that it refers to stands before it, itself
apart. A `Placement` is what has been placed so far, and the names that need a deferred
update because one of their references is not complete where they stand. One pass over
the models that wait places those that can be placed (`placeReady`); the last pass also
places models that wait for nothing but each other (`placeRemaining`). -/
namespace Bindery

/-- The models in the order in which they are to be written. -/
structure Placement where
  /-- Qualified names with their models. -/
  models : Entries String Model := []
  /-- The names that need a deferred update. -/
  requireUpdate : List String := []
  /-- Base classes decided the end of the order. -/
  fallback : Bool := false
deriving Inhabited

/-- A model whose references no order can satisfy. -/
structure Unresolved where
  name : String
  references : SortedSet String

def Unresolved.text (u : Unresolved) : String :=
  "[class: " ++ u.name ++ " references: \x7b" ++ Text.join ", " u.references.toList ++ "\x7d]"

def Unresolved.message (models : List Unresolved) : String :=
  "Unable to resolve model references: " ++ Text.join ", " (models.map Unresolved.text)

namespace Placement

def names (p : Placement) : List String := Entries.keys p.models

def requiresUpdate (p : Placement) (name : String) : Bool := name ∈ p.requireUpdate

/-- Put a model at the end. -/
def place (p : Placement) (name : String) (m : Model) (update : Bool) : Placement :=
  { p with
    models := Entries.put name m p.models
    requireUpdate := if update then p.requireUpdate ++ [name] else p.requireUpdate }

/-- The references of a model that are neither the model itself nor placed. -/
def missing (p : Placement) (name : String) (m : Model) : List String :=
  m.references.toList.filter fun r => r ≠ name && !Entries.has r p.models

/-- One pass: place each model that can be placed, and keep the others in order. -/
def placeReady : Placement → List Model → Placement × List Model
  | p, [] => (p, [])
  | p, m :: rest =>
    let name := m.qualifiedName
    if (p.missing name m).isEmpty then
      (p.place name m m.refersToItself).placeReady rest
    else
      let (p, waiting) := p.placeReady rest
      (p, m :: waiting)

/-- The last pass. A model that waits for models of the same pass only is placed all
the same: it breaks a cycle, and needs an update as does every model that refers to it
or to itself. A model that waits for anything else is not placed; `broken` are the
names that broke a cycle. -/
def placeEach (remaining : List String) :
    Placement → List String → List Model → Placement × List Unresolved
  | p, _, [] => (p, [])
  | p, broken, m :: rest =>
    let name := m.qualifiedName
    let missing := p.missing name m
    if missing.isEmpty then
      let update := m.references.toList.any fun r => r = name || r ∈ broken
      placeEach remaining (p.place name m update) broken rest
    else if missing.all (· ∈ remaining) then
      placeEach remaining (p.place name m true) (name :: broken) rest
    else
      let (p, failures) := placeEach remaining p broken rest
      (p, ⟨name, m.references⟩ :: failures)

/-- Place the models that the passes left, or say which of them cannot be placed. -/
def placeRemaining (p : Placement) (ordered : List Model) : Except (List Unresolved) Placement :=
  match placeEach (ordered.map Model.qualifiedName) p [] ordered with
  | (p, []) => .ok p
  | (_, failures) => .error failures

end Placement

end Bindery
