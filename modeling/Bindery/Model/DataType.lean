import Bindery.Text.Pieces

/-! References to types.

A `DataType` is a name in a type annotation, with the parameters of a generic type
below it. Its name starts as the bare name of a model or of a built-in type, and is
changed into the form in which the module at hand can reach it; where the target
lives (`home`) and where the reference came from (`origin`) stay as they were given.

Types are visited parents first (`preorder`), and renamed in that order by a function
with a state (`rename`). -/
namespace Bindery

/-- A reference to a type, anywhere inside a model. -/
structure DataType where
  /-- The name, as the annotation shows it. -/
  name : String
  /-- The namespace of the model that is meant. -/
  home : Option String := none
  /-- The path in a schema that the reference was made from. -/
  origin : Option String := none
  /-- The generic type whose parameters are below, such as `List`. -/
  container : Option String := none
  parameters : List DataType := []
deriving Repr, Inhabited

namespace DataType

/-- A model in a namespace; the root namespace is left out. -/
def model (home name : String) : DataType where
  name := name
  home := if home = "" then none else some home

/-- A generic type with its parameters. -/
def generic (container : String) (parameters : List DataType) : DataType where
  name := container
  container := some container
  parameters := parameters

/-- Whether the reference names a model of some namespace. -/
def isModular (t : DataType) : Bool :=
  t.container.isNone && t.home.any (· ≠ "")

/-- The name with the namespace in front, if the reference is modular. -/
def fullName (t : DataType) : String :=
  match t.home with
  | some home => if t.isModular then home ++ "." ++ t.name else t.name
  | none => t.name

mutual

/-- The annotation: the name, or the generic type with its parameters in brackets. -/
def hint : DataType → String
  | ⟨name, _, _, none, _⟩ => name
  | ⟨_, _, _, some container, []⟩ => container
  | ⟨_, _, _, some container, p :: ps⟩ =>
    container ++ "[" ++ Text.join ", " (hint p :: hints ps) ++ "]"

def hints : List DataType → List String
  | [] => []
  | t :: rest => hint t :: hints rest

end

mutual

/-- The type and everything below it, parents first. -/
def preorder : DataType → List DataType
  | ⟨name, home, origin, container, parameters⟩ =>
    ⟨name, home, origin, container, parameters⟩ :: preorders parameters

def preorders : List DataType → List DataType
  | [] => []
  | t :: rest => preorder t ++ preorders rest

end

section Rename
variable {σ : Type} (f : σ → DataType → σ × String)

mutual

/-- Rename the type and everything below it, parents first, with a state. A parent is
seen with its parameters as they were. -/
def rename : σ → DataType → σ × DataType
  | s, ⟨name, home, origin, container, parameters⟩ =>
    let (s, renamed) := f s ⟨name, home, origin, container, parameters⟩
    let (s, below) := renameAll s parameters
    (s, ⟨renamed, home, origin, container, below⟩)

/-- Rename types one after the other. -/
def renameAll : σ → List DataType → σ × List DataType
  | s, [] => (s, [])
  | s, t :: rest =>
    let (s, t) := rename s t
    let (s, others) := renameAll s rest
    (s, t :: others)

end

end Rename

end DataType

end Bindery
