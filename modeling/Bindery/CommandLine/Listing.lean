import Bindery.CommandLine.Table
import Bindery.Order.Sort

/-! The listing of the models of a graph, in the order in which they are written. -/
namespace Bindery.CommandLine

def listingRow (p : Placement) (number : Nat) (key : String) (m : Model) : List String :=
  [toString number, key, if m.path.isEmpty then "(root)" else m.moduleName, m.kind.text,
    if p.requiresUpdate key then "yes" else ""]

def listing (p : Placement) : Table where
  header := ["#", "MODEL", "NAMESPACE", "KIND", "DEFERRED"]
  rows := p.models.zipIdx.map fun ((key, m), i) => listingRow p (i + 1) key m

/-- The width of a page that nothing else is known about. -/
def pageWidth : Nat := 80

/-- What is said if base classes had to decide. -/
def fallbackNotice : String := "Base-class ordering decided the tail of this listing"

end Bindery.CommandLine
