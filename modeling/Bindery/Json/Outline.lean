import Bindery.Data.Entries
import Bindery.Json.Basic

/-! What a text says, as far as it says anything.

A reader that expects a certain structure can meet two kinds of trouble: the text is
no JSON, or it is JSON of another shape. Which of them it reports is decided by which
comes first. `Outline` makes that a question about a tree: reading a text never fails,
it stops at the first character that JSON does not allow, and the tree says where.
Scalars that are written well but name no value (a number beyond all doubles, half a
surrogate pair) are kept as such, since only some readers ask for their value.

A reader walks the tree in the order of the text and stops at the first `Fault`. -/
namespace Bindery

/-- The outline of a text. -/
inductive Json.Outline where
  | null
  | bool (value : Bool)
  /-- A number literal, and its number unless that is too large. -/
  | number (value : Option Json.Number)
  /-- A string literal, and its text unless an escape names half a surrogate pair. -/
  | string (value : Option String)
  /-- Items, and whether the array was closed. -/
  | array (items : List Json.Outline) (closed : Bool)
  /-- Members, and whether the object was closed. -/
  | object (members : List (Option String × Json.Outline)) (closed : Bool)
  /-- No value was found here. -/
  | absent
deriving Repr, Inhabited

/-- Why a reader gives up. -/
inductive Json.Fault where
  /-- The text is no JSON, or nests too deep. -/
  | notJson
  /-- The text has another structure than the one asked for. -/
  | wrongShape
deriving DecidableEq, Repr

namespace Json.Outline

/-- The fault of a scalar where something else was asked for: its own, if it has one. -/
def unexpected : Outline → Fault
  | .number none => .notJson
  | .string none => .notJson
  | .absent => .notJson
  | _ => .wrongShape

/-- The fault of a value that stands where no further nesting is allowed. -/
def blocked : Outline → Fault
  | .array _ _ => .notJson
  | .object _ _ => .notJson
  | outline => outline.unexpected

/-! ### Scalars -/

/-- A string. -/
def text : Outline → Except Fault String
  | .string (some s) => .ok s
  | outline => .error outline.unexpected

/-- A truth value. -/
def flag : Outline → Except Fault Bool
  | .bool b => .ok b
  | outline => .error outline.unexpected

/-- A value or `null`. -/
def optional {α : Type} (read : Outline → Except Fault α) : Outline → Except Fault (Option α)
  | .null => .ok none
  | outline => (read outline).map some

/-- Nothing may follow where the text did not close what it opened. -/
def ending {α : Type} (closed : Bool) (value : α) : Except Fault α :=
  if closed then .ok value else .error .notJson

/-! ### Nested values

`levels` is how many arrays and objects may still be opened. -/

/-- Every item of an array. -/
def list {α : Type} (levels : Nat) (read : Nat → Outline → Except Fault α) :
    Outline → Except Fault (List α)
  | .array items closed =>
    match levels with
    | 0 => .error .notJson
    | n + 1 => do ending closed (← items.mapM (read n))
  | outline => .error outline.unexpected

mutual

/-- Whether a value that nobody asks for is JSON; how deep it nests does not matter. -/
def sound : Outline → Bool
  | .array items closed => soundItems items && closed
  | .object members closed => soundMembers members && closed
  | .absent => false
  | _ => true

def soundItems : List Outline → Bool
  | [] => true
  | item :: rest => sound item && soundItems rest

def soundMembers : List (Option String × Outline) → Bool
  | [] => true
  | (_, value) :: rest => sound value && soundMembers rest

end

mutual

/-- Any value. A key that comes again takes its last value, at its first place. -/
def value : Nat → Outline → Except Fault Json
  | _, .null => .ok .null
  | _, .bool b => .ok (.bool b)
  | _, .number (some n) => .ok (.number n)
  | _, .string (some s) => .ok (.string s)
  | 0, _ => .error .notJson
  | n + 1, .array items closed => do ending closed (.array (← valueItems n items))
  | n + 1, .object members closed => do ending closed (.object (← valueMembers n [] members))
  | _ + 1, _ => .error .notJson

def valueItems : Nat → List Outline → Except Fault (List Json)
  | _, [] => .ok []
  | n, item :: rest => do
    let first ← value n item
    return first :: (← valueItems n rest)

def valueMembers : Nat → Entries String Json → List (Option String × Outline) →
    Except Fault (Entries String Json)
  | _, before, [] => .ok before
  | _, _, (none, _) :: _ => .error .notJson
  | n, before, (some key, outline) :: rest => do
    let v ← value n outline
    valueMembers n (Entries.put key v before) rest

end

mutual

/-- The outline of a value that has been read already. -/
def ofJson : Json → Outline
  | .null => .null
  | .bool b => .bool b
  | .number n => .number (some n)
  | .string s => .string (some s)
  | .array items => .array (ofItems items) true
  | .object members => .object (ofMembers members) true

def ofItems : List Json → List Outline
  | [] => []
  | item :: rest => ofJson item :: ofItems rest

def ofMembers : List (String × Json) → List (Option String × Outline)
  | [] => []
  | (key, value) :: rest => (some key, ofJson value) :: ofMembers rest

end

/-! ### Records -/

/-- How a record is read: its fields in order, those that must be given, the record
with every field left out, and what giving a field does. -/
structure Record (α : Type) where
  fields : List String
  required : List String
  blank : α
  set : String → Outline → α → Except Fault α

namespace Record
variable {α : Type}

/-- Members by name, in any order. An unknown one is passed over, a field given twice
is a fault; `given` are the fields so far. -/
def readMembers (r : Record α) : List String → List (Option String × Outline) → α →
    Except Fault (List String × α)
  | given, [], a => .ok (given, a)
  | _, (none, _) :: _, _ => .error .notJson
  | given, (some key, outline) :: rest, a =>
    if key ∈ r.fields then
      if key ∈ given then .error .wrongShape
      else do r.readMembers (key :: given) rest (← r.set key outline a)
    else if outline.sound then r.readMembers given rest a
    else .error .notJson

/-- Values in the order of the fields; there may be fewer values, but not more. -/
def readItems (r : Record α) : List String → List Outline → α →
    Except Fault (List String × α)
  | _, [], a => .ok ([], a)
  | [], _ :: _, _ => .error .notJson
  | field :: fields, outline :: rest, a => do
    let (given, a) ← r.readItems fields rest (← r.set field outline a)
    return (field :: given, a)

/-- The record that an object or an array gives. -/
def read (r : Record α) : Outline → Except Fault α
  | .object members closed => do
    let (given, a) ← ending closed (← r.readMembers [] members r.blank)
    if r.required.all (· ∈ given) then .ok a else .error .wrongShape
  | .array items closed => do
    let (given, a) ← ending closed (← r.readItems r.fields items r.blank)
    if r.required.all (· ∈ given) then .ok a else .error .wrongShape
  | outline => .error outline.unexpected

/-- A record below the top of a text: `make` says how it is read with one level less. -/
def nested (levels : Nat) (make : Nat → Record α) (outline : Outline) : Except Fault α :=
  match levels with
  | 0 => .error outline.blocked
  | n + 1 => (make n).read outline

end Record

end Json.Outline

end Bindery
