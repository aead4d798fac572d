import Bindery.Data.Entries
import Bindery.Files.Fault
import Bindery.Files.Path

/-! Files in memory.

A tree is a folder with folders and files below it, and one device that swallows
everything. A place is the list of names that lead to it from the root. A path leads to a
place only through folders, so a name that does not exist, or names a file, can only stand
at its end. -/
namespace Bindery.Files

/-- A thing at a place. -/
inductive Item where
  | folder (items : List (String × Item))
  | file (text : String)
  /-- Reads as nothing and takes everything. -/
  | sink
deriving Inhabited

/-- A place: the names that lead to it from the root. -/
abbrev Place : Type := List String

namespace Item

/-- The things in a folder; there are none in anything else. -/
def items : Item → Entries String Item
  | .folder items => items
  | _ => []

def isFolder : Item → Bool
  | .folder _ => true
  | _ => false

/-- What is at a place below this. -/
def at? : Place → Item → Option Item
  | [], i => some i
  | name :: rest, i => (List.lookup name i.items).bind (at? rest)

/-- This with something put at a place below it; folders on the way are made. -/
def put (new : Item) : Place → Item → Item
  | [], _ => new
  | name :: rest, i =>
    .folder (Entries.put name (put new rest ((List.lookup name i.items).getD (.folder []))) i.items)

mutual

/-- The files below a path, with their paths. -/
def files (path : String) : Item → List (String × String)
  | .folder items => filesIn path items
  | .file text => [(path, text)]
  | .sink => []

/-- The files below things in a folder. -/
def filesIn (path : String) : List (String × Item) → List (String × String)
  | [] => []
  | (name, item) :: rest => files (join path name) item ++ filesIn path rest

end

/-- What was put at a place is there. -/
theorem at?_put (new : Item) (place : Place) (i : Item) :
    (put new place i).at? place = some new := by
  induction place generalizing i with
  | nil => rfl
  | cons name rest ih => simp [put, at?, items, Entries.lookup_put, ih]

end Item

/-- Where a path leads: a place, and what is there already. -/
structure Spot where
  place : Place
  item : Option Item
deriving Inhabited

/-- A way down through folders: each with its name, the last one first. -/
abbrev Way : Type := List (String × Item)

namespace Way

def place (way : Way) : Place := (way.map (·.1)).reverse

/-- The thing at the end of a way from the root. -/
def last (root : Item) (way : Way) : Item := (way.head?.map (·.2)).getD root

/-- The way to a place, as far as there is something. -/
def toPlace (root : Item) : Place → Way → Way
  | [], way => way
  | name :: rest, way =>
    match List.lookup name (last root way).items with
    | some item => toPlace root rest ((name, item) :: way)
    | none => way

/-- Follow pieces of a path from the end of a way. -/
def follow (root : Item) : Way → List String → Except Fault Spot
  | way, [] => .ok ⟨way.place, some (way.last root)⟩
  | way, piece :: rest =>
    if !(way.last root).isFolder then .error .notFolder
    else if piece.utf8ByteSize > 255 then .error .tooLong
    else if isIdle piece then follow root way rest
    else if piece = ".." then follow root way.tail rest
    else
      match List.lookup piece (way.last root).items with
      | some item => follow root ((piece, item) :: way) rest
      | none => if rest.isEmpty then .ok ⟨way.place ++ [piece], none⟩ else .error .missing

end Way

/-- What there is, and the folder in which relative paths start. -/
structure Tree where
  root : Item
  home : Place
deriving Inhabited

namespace Tree

/-- An empty home folder among a few system folders. -/
def start : Tree where
  root := .folder [("dev", .folder [("null", .sink)]), ("tmp", .folder []), ("home", .folder [])]
  home := ["home"]

def item? (t : Tree) (place : Place) : Option Item := t.root.at? place

/-- Put something at a place. -/
def set (t : Tree) (place : Place) (item : Item) : Tree :=
  { t with root := Item.put item place t.root }

/-- The bytes that a path can have, and one more. -/
def pathLimit : Nat := 4096

/-- The spot that a path leads to, where there may be nothing yet. -/
def locate (t : Tree) (path : String) (pieces : List String) : Except Fault Spot :=
  if '\x00' ∈ path.toList then .error .badName
  else if path = "" then .error .missing
  else if pathLimit ≤ path.utf8ByteSize then .error .tooLong
  else Way.follow t.root (if isAbsolute path then [] else Way.toPlace t.root t.home []) pieces

/-- The text of the file that a path leads to. -/
def read? (t : Tree) (path : String) : Option String :=
  match t.locate path (Text.pieces '/' path) with
  | .ok ⟨_, some (.file text)⟩ => some text
  | .ok ⟨_, some .sink⟩ => some ""
  | _ => none

def write (t : Tree) (path text : String) : Except Fault Tree := do
  match ← t.locate path (Text.pieces '/' path) with
  | ⟨_, some (.folder _)⟩ => throw .isFolder
  | ⟨_, some .sink⟩ => return t
  | ⟨place, _⟩ => return t.set place (.file text)

def isFolder (t : Tree) (path : String) : Bool :=
  match t.locate path (Text.pieces '/' path) with
  | .ok ⟨_, some item⟩ => item.isFolder
  | _ => false

def makeFolder (t : Tree) (path : String) : Except Fault Tree := do
  let pieces := Text.pieces '/' path
  match ← t.locate path ((pieces.reverse.dropWhile (· = "")).reverse) with
  | ⟨_, some _⟩ => throw .occupied
  | ⟨place, none⟩ => return t.set place (.folder [])

/-- The files in the home folder, with their paths from there. -/
def homeFiles (t : Tree) : List (String × String) :=
  (t.item? t.home).elim [] (Item.files "")

/-- The files in the home folder that are not in it in the same way in another tree. -/
def changedSince (t before : Tree) : List (String × String) :=
  let known := before.homeFiles
  t.homeFiles.filter fun file => file ∉ known

theorem item?_set (t : Tree) (place : Place) (item : Item) :
    (t.set place item).item? place = some item :=
  Item.at?_put item place t.root

end Tree

end Bindery.Files
