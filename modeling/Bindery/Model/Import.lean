import Bindery.Data.SortedSet
import Bindery.Text.Pieces

/-! Import directives and sets of them.

An `Import` brings one name into a module, from another module or as a module of its
own, possibly under another name. `Imports` is a set of them: it is listed in order,
plain imports before those from modules, and written with one statement for each
module, its names joined (`Imports.text`). -/
namespace Bindery

/-- One imported name: `from source import name as asName`. -/
structure Import where
  /-- The module that has the name; a plain import has none. -/
  source : Option String := none
  name : String
  /-- The name it gets. -/
  asName : Option String := none
deriving DecidableEq, Repr, Inhabited

namespace Import

/-- Imports are ordered by source, then name, then the name they get. -/
instance : Ord Import where
  compare := compareLex (compareOn source) (compareLex (compareOn name) (compareOn asName))

theorem compare_def :
    (compare : Import → Import → Ordering) =
      compareLex (compareOn source) (compareLex (compareOn name) (compareOn asName)) := rfl

instance : Std.TransOrd Import :=
  inferInstanceAs (Std.TransCmp
    (compareLex (compareOn source) (compareLex (compareOn name) (compareOn asName))))

instance : Std.LawfulEqOrd Import where
  eq_of_compare {a b} h := by
    simp only [compare_def, compareLex_eq_eq, compareOn, Std.LawfulEqOrd.compare_eq_iff_eq] at h
    obtain ⟨source, name, asName⟩ := a
    simp_all

/-- The name that the module can use. -/
def localName (i : Import) : String := i.asName.getD i.name

/-- The name with the name it gets. -/
def nameText (i : Import) : String :=
  match i.asName with
  | some given => i.name ++ " as " ++ given
  | none => i.name

def text (i : Import) : String :=
  match i.source with
  | some source => "from " ++ source ++ " import " ++ i.nameText
  | none => "import " ++ i.nameText

end Import

/-- A set of imports. -/
abbrev Imports : Type := SortedSet Import

namespace Imports

/-- The module whose imports have to come before every other statement. -/
def futureModule : String := "__future__"

/-- The imports from one module, and the others. -/
def takeModule (source : String) (imports : Imports) : Imports × Imports :=
  (imports.filter (·.source = some source), imports.filter (·.source ≠ some source))

@[simp] theorem mem_takeModule_fst {source : String} {imports : Imports} {i : Import} :
    i ∈ (takeModule source imports).1 ↔ i ∈ imports ∧ i.source = some source := by
  simp [takeModule]

@[simp] theorem mem_takeModule_snd {source : String} {imports : Imports} {i : Import} :
    i ∈ (takeModule source imports).2 ↔ i ∈ imports ∧ i.source ≠ some source := by
  simp [takeModule]

/-- The statement for names from one source; a plain import has a statement for each. -/
def statements : Option String → List Import → List String
  | none, imports => imports.map fun i => "import " ++ i.nameText
  | some source, imports =>
    ["from " ++ source ++ " import " ++ Text.join ", " (imports.map Import.nameText)]

/-- Neighbours with the same source, together. -/
def groups : List Import → List (Option String × List Import)
  | [] => []
  | i :: rest =>
    match groups rest with
    | (source, members) :: others =>
      if i.source = source then (source, i :: members) :: others
      else (i.source, [i]) :: (source, members) :: others
    | [] => [(i.source, [i])]

/-- The statements of a set, one below the other. -/
def text (imports : Imports) : String :=
  Text.join "\n" ((groups imports.toList).flatMap fun g => statements g.1 g.2)

end Imports

end Bindery
