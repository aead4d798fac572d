import Bindery.Order.BaseClasses

/-! Putting models in order, each one after the models that it refers to.

Passes over the models are repeated as long as they place something, up to a budget.
What is left then refers to itself in a circle, or to something that does not exist, or
was not reached within the budget; it is arranged by base classes and placed in one
last pass, which breaks circles and fails on references that nothing answers. -/
namespace Bindery

/-- How many passes may follow the first one, unless something else is said. -/
def defaultPasses : Nat := 100

namespace Placement

/-- Passes until nothing waits, a pass places nothing, or the budget is spent. -/
def passes : Nat → Placement → List Model → Placement × List Model
  | budget, p, pending =>
    let (p, waiting) := p.placeReady pending
    if waiting.length = 0 ∨ waiting.length = pending.length then (p, waiting)
    else
      match budget with
      | 0 => (p, waiting)
      | budget + 1 => passes budget p waiting

end Placement

/-- The models in order, or those whose references no order can satisfy. -/
def sortModels (budget : Nat) (models : List Model) : Except (List Unresolved) Placement :=
  match Placement.passes budget {} models with
  | (p, []) => .ok p
  | (p, waiting) =>
    { p with fallback := true }.placeRemaining (BaseClasses.arrange p waiting).1

end Bindery
