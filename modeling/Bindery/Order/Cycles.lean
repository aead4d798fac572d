import Bindery.Model.Basic

/-! Reference cycles.

The references among a list of models make a graph on their qualified names. A name is
on a cycle if following references leads back to it, and two names are on the same
cycle if each leads to the other. `detectCycles` lists the cycles, each with its names
in order, by their first names. -/
namespace Bindery

/-- The names of models, in increasing order, each with the names of models that it
refers to. -/
abbrev ReferenceGraph : Type := Entries String (List String)

namespace ReferenceGraph

/-- The references among models; one to a name that no model has is left out. -/
def ofModels (models : List Model) : ReferenceGraph :=
  let named := models.map fun m => (m.qualifiedName, m)
  let names := SortedSet.ofList (Entries.keys named)
  names.toList.map fun name =>
    (name, (named.filter (·.1 = name)).flatMap fun (_, m) =>
      m.references.toList.filter (· ∈ names))

/-- The names that a name refers to. -/
def next (g : ReferenceGraph) (name : String) : List String := (List.lookup name g).getD []

def edges (g : ReferenceGraph) : Nat := (g.map fun e => e.2.length).foldr (· + ·) 0

/-- Follow references from the names that wait; `reached` are the names that were
found, `fuel` bounds the steps. -/
def explore (next : String → List String) : Nat → List String → List String → List String
  | 0, _, reached => reached
  | _ + 1, [], reached => reached
  | fuel + 1, name :: waiting, reached =>
    if name ∈ reached then explore next fuel waiting reached
    else explore next fuel (next name ++ waiting) (name :: reached)

/-- The names that one or more references lead to. A name's references are followed
once, so there are no more steps than twice the references. -/
def reachable (g : ReferenceGraph) (name : String) : List String :=
  explore g.next (2 * g.edges + 1) (g.next name) []

/-- Each name with the names that it leads to. -/
def closure (g : ReferenceGraph) : ReferenceGraph :=
  g.map fun e => (e.1, g.reachable e.1)

/-- The names that lead to a name and are led to by it, from a graph that is closed. -/
def partners (closed : ReferenceGraph) (name : String) (reached : List String) : List String :=
  Entries.keys (closed.filter fun e => e.1 ∈ reached && name ∈ e.2)

/-- The cycles; each is found at every name on it and listed at the first one. -/
def cycles (g : ReferenceGraph) : List (List String) :=
  let closed := g.closure
  (closed.map fun e => (e.1, closed.partners e.1 e.2)).filterMap fun (name, cycle) =>
    if cycle.head? = some name then some cycle else none

end ReferenceGraph

def detectCycles (models : List Model) : List (List String) :=
  (ReferenceGraph.ofModels models).cycles

end Bindery
