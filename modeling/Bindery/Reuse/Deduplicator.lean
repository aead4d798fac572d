import Bindery.Reuse.StructuralKey

/-! Writing each structure once.

Of the models of a unit that have the same structure the first one is kept. The others
are replaced by what stands for a duplicate of it, and types that name one of them are
renamed to the one that was kept. -/
namespace Bindery

/-- The structures that have come up. -/
structure Deduplicator where
  /-- The first model of each structure, by key. -/
  first : Entries String String := []
  /-- The name that stands in for a duplicate's name. -/
  standIn : Entries String String := []
deriving Inhabited

namespace Deduplicator

/-- What is written in place of a model; none if the model has no key. -/
def process? (d : Deduplicator) (m : Model) : Option (Deduplicator × Model) := do
  let key ← m.structuralKey?
  match d.first.lookup key with
  | none => return ({ d with first := Entries.put key m.name d.first }, m)
  | some canonical =>
    return ({ d with standIn := Entries.put m.name canonical d.standIn },
      m.asDuplicateOf canonical)

/-- What is written in place of models, one after the other. -/
def processAll? : Deduplicator → List Model → Option (Deduplicator × List Model)
  | d, [] => some (d, [])
  | d, m :: rest => do
    let (d, m) ← d.process? m
    let (d, others) ← d.processAll? rest
    return (d, m :: others)

def standInOf? (d : Deduplicator) (name : String) : Option String := d.standIn.lookup name

/-- A model whose types name no duplicate. -/
def redirect (d : Deduplicator) (m : Model) : Model :=
  (m.renameTypes (fun (_ : Unit) t => ((), (d.standInOf? t.name).getD t.name)) ()).2

/-- How many names have a stand-in. -/
def collapsed (d : Deduplicator) : Nat := d.standIn.length

end Deduplicator

end Bindery
