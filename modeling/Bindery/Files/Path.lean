import Bindery.Text.Pieces

/-! Paths of files.

A path is a text in which `/` parts names. The folder that a path lies in is found in
the text alone: slashes at the end and dots that stand for the same folder do not count,
except for a dot at the very beginning. -/
namespace Bindery.Files

def isAbsolute (path : String) : Bool := path.toList.head? = some '/'

/-- A path continued by a part. An absolute part starts anew. -/
def join (base part : String) : String :=
  if isAbsolute part then part
  else if base = "" ∨ base.toList.getLast? = some '/' then base ++ part
  else base ++ "/" ++ part

/-- A path continued by several parts. -/
def joinAll (base : String) (parts : List String) : String := parts.foldl join base

/-- Whether a piece of a path leads nowhere else. -/
def isIdle (piece : String) : Bool := piece = "" || piece = "."

/-- Pieces without the idle ones at their end. -/
def dropIdleEnd (pieces : List String) : List String := (pieces.reverse.dropWhile isIdle).reverse

/-- The folder that a path lies in, unless the path is empty or the root. -/
def parent? (path : String) : Option String :=
  match Text.pieces '/' path with
  | "" :: below =>
    match dropIdleEnd below with
    | [] => none
    | names => some ("/" ++ Text.join "/" (dropIdleEnd names.dropLast))
  | first :: below =>
    match dropIdleEnd below with
    | [] => some ""
    | names => some (Text.join "/" (first :: dropIdleEnd names.dropLast))
  | [] => none

theorem join_of_isAbsolute {base part : String} (h : isAbsolute part = true) :
    join base part = part := by
  simp [join, h]

theorem joinAll_append (base : String) (a b : List String) :
    joinAll base (a ++ b) = joinAll (joinAll base a) b := by
  simp [joinAll, List.foldl_append]

end Bindery.Files
