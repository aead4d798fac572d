import Bindery.Text.Pieces

/-! How one namespace imports from another.

Namespaces are dotted names. From a module, one dot stands for the package that holds
it and each further dot for the package one level up; the segments that follow lead
down again. A model of a namespace below is reached by importing that namespace, and a
model of a namespace above by importing the model itself (`RelativeImport.member`).
From inside the init module of a package one dot is the package itself
(`relativeFromPackage?`). -/
namespace Bindery

/-- Where a name is imported from. -/
structure RelativeImport where
  /-- Dots, then the segments down to what holds the name. -/
  source : String
  name : String
  /-- The name is a model's, not a namespace's. -/
  member : Bool
deriving DecidableEq, Repr, Inhabited

namespace RelativeImport

/-- What makes two imports the same. -/
def key (i : RelativeImport) : String × String := (i.source, i.name)

end RelativeImport

namespace Dotted

def segments (name : String) : List String := if name = "" then [] else Text.pieces '.' name

/-- The namespace and the last segment of a qualified name. -/
def split (name : String) : String × String := (Text.splitLast? '.' name).getD ("", name)

/-- How many segments two namespaces have in common, from the root. -/
def common : List String → List String → Nat
  | a :: as, b :: bs => if a = b then common as bs + 1 else 0
  | _, _ => 0

end Dotted

/-- How the namespace `current` imports the model with the qualified name `reference`;
none if the model lives in that namespace. -/
def relative? (current reference : String) : Option RelativeImport :=
  let here := Dotted.segments current
  let (home, leaf) := Dotted.split reference
  let there := Dotted.segments home
  if here = there then none
  else
    let common := Dotted.common here there
    let dots := Text.replicate (max (here.length - common) 1) "."
    let below := Text.join "." (there.drop common)
    if below = "" then some ⟨dots, leaf, true⟩
    else
      match Text.splitLast? '.' below with
      | some (extra, last) => some ⟨dots ++ extra, last, false⟩
      | none => some ⟨dots, below, false⟩

/-- The segment that stands for the init module of a package. -/
def initSegment : String := "__init__"

/-- How the init module of the package `current` imports a model; none if the model
lives in that package. -/
def relativeFromPackage? (current reference : String) : Option RelativeImport :=
  if (relative? current reference).isNone then none
  else
    relative? (if current = "" then initSegment else current ++ "." ++ initSegment) reference

end Bindery
