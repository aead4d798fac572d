import Bindery.Data.StableSort
import Bindery.Order.Placement

/-! Ordering models by their base classes.

No deferred update can supply a missing base class, so the models that the passes could
not place are sorted by the position of their first base class among themselves, those
without one in front, over and over until nothing moves. Base classes that form a cycle
may never settle: an order that comes again, or a bound on the rounds, then ends it. -/
namespace Bindery.BaseClasses

def position? (names : List String) (name : String) : Option Nat :=
  names.findIdx? (· = name)

/-- The position of a base class. It is named by its qualified name, or, unless a model
of that name was placed, relative to the namespace of the model. -/
def basePosition? (placed : Placement) (names : List String) (m : Model) (base : String) :
    Option Nat :=
  match position? names base with
  | some i => some i
  | none =>
    if m.path = [] ∨ Entries.has base placed.models then none
    else position? names (m.moduleName ++ "." ++ base)

def lesser : Option Nat → Option Nat → Option Nat
  | none, j => j
  | some i, none => some i
  | some i, some j => some (min i j)

/-- A model's rank: the first position of a base class, if any is in the list. -/
def rank (placed : Placement) (names : List String) (m : Model) : Option Nat :=
  (m.bases.map (basePosition? placed names m)).foldr lesser none

/-- Whether a rank may come before another; no rank comes before all others. -/
def rankLE : Option Nat → Option Nat → Bool
  | none, _ => true
  | some _, none => false
  | some i, some j => decide (i ≤ j)

/-- One round: sort by rank, equals stay in order. -/
def round (placed : Placement) (models : List Model) : List Model :=
  let names := models.map Model.qualifiedName
  (stableSort (fun a b => rankLE a.1 b.1)
    (models.map fun m => (rank placed names m, m))).map (·.2)

/-- Whether a round leaves the ranks as they are: each is at most the next one. -/
def isSettled (placed : Placement) (models : List Model) : Bool :=
  let ranks := models.map (rank placed (models.map Model.qualifiedName))
  (ranks.zip (ranks.drop 1)).all fun r => rankLE r.1 r.2

/-- Why the rounds ended. -/
inductive Ending where
  /-- Another round would change nothing. -/
  | stable
  /-- The order has been there before. -/
  | repeated
  | exhausted
deriving DecidableEq, Repr

/-- Go on until an ending; `seen` are the orders that were there. -/
def settle (placed : Placement) : Nat → List (List String) → List Model → List Model × Ending
  | 0, _, models => (models, .exhausted)
  | rounds + 1, seen, models =>
    let names := models.map Model.qualifiedName
    if names ∈ seen then (models, .repeated)
    else if isSettled placed models then (models, .stable)
    else settle placed rounds (names :: seen) (round placed models)

/-- As many rounds as are allowed for a number of models. -/
def roundLimit (count : Nat) : Nat := count * count + 1

/-- The models by their base classes, and why the rounds ended. -/
def arrange (placed : Placement) (models : List Model) : List Model × Ending :=
  settle placed (roundLimit models.length) [] models

end Bindery.BaseClasses
