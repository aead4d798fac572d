import Bindery.Data.Entries
import Bindery.Reference.Location

/-! Local names for imports.

Everything that a unit imports needs a name that nothing else in the unit has. A
location that is asked for again keeps its name; a new one gets the name it is imported
under if that is free, and otherwise that name with the least number behind it, from 2
on, that makes it free. -/
namespace Bindery

/-- The least number from `n` on that makes a name free. Each number that does not is
the number of a used name, so `fuel` used names leave one free within `fuel + 1` tries. -/
def freeSuffix (base : String) (used : List String) : Nat → Nat → Nat
  | 0, n => n
  | fuel + 1, n => if base ++ toString n ∈ used then freeSuffix base used fuel (n + 1) else n

/-- A name that is not used: the name itself, or with a number behind it. -/
def freeName (base : String) (used : List String) : String :=
  if base ∈ used then base ++ toString (freeSuffix base used used.length 2) else base

/-- The names that are taken, and the locations that have names. -/
structure LocalNames where
  used : List String
  assigned : Entries (String × String) String := []
deriving Inhabited

namespace LocalNames

/-- Names that are taken from the start. -/
def reserving (names : List String) : LocalNames := ⟨names, []⟩

def add (names : LocalNames) (i : RelativeImport) : LocalNames × String :=
  match names.assigned.lookup i.key with
  | some name => (names, name)
  | none =>
    let name := freeName i.name names.used
    (⟨name :: names.used, Entries.put i.key name names.assigned⟩, name)

def size (names : LocalNames) : Nat := names.assigned.length

end LocalNames

end Bindery
