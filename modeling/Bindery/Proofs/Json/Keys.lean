import Bindery.Data.Outcomes
import Bindery.Json.Reader

/-! Objects name every key once.

Members are put one by one, and a key that comes again takes its last value, so no object of a
value that was read names a key twice (`keyed_of_parse`). -/
namespace Bindery.Json

mutual

def Keyed : Json → Prop
  | .array items => KeyedItems items
  | .object members => (Entries.keys members).Nodup ∧ KeyedMembers members
  | _ => True

def KeyedItems : List Json → Prop
  | [] => True
  | item :: rest => Keyed item ∧ KeyedItems rest

def KeyedMembers : List (String × Json) → Prop
  | [] => True
  | (_, v) :: rest => Keyed v ∧ KeyedMembers rest

end

theorem keyedMembers_put {key : String} {v : Json} (hv : v.Keyed)
    {members : List (String × Json)} (h : KeyedMembers members) :
    KeyedMembers (Entries.put key v members) := by
  induction members with
  | nil => exact ⟨hv, trivial⟩
  | cons member rest ih =>
    obtain ⟨k, w⟩ := member
    obtain ⟨hw, hrest⟩ := h
    rw [Entries.put]
    split
    · exact ⟨hv, hrest⟩
    · exact ⟨hw, ih hrest⟩

namespace Outline

theorem ending_eq_ok {α : Type} {closed : Bool} {a b : α} (h : ending closed a = .ok b) :
    a = b := by
  unfold ending at h
  split at h
  · exact Except.ok.inj h
  · cases h

mutual

/-- What an outline gives names every key once. -/
theorem keyed_of_value : ∀ (n : Nat) (o : Outline) {v : Json}, value n o = .ok v → v.Keyed
  | _, .null, _, h => by
    cases h
    trivial
  | _, .bool _, _, h => by
    cases h
    trivial
  | _, .number (some _), _, h => by
    cases h
    trivial
  | _, .string (some _), _, h => by
    cases h
    trivial
  | n + 1, .array items closed, _, h => by
    obtain ⟨values, hvalues, h⟩ := Except.bind_eq_ok h
    obtain rfl := ending_eq_ok h
    exact keyedItems_of_valueItems n items hvalues
  | n + 1, .object members closed, _, h => by
    obtain ⟨values, hvalues, h⟩ := Except.bind_eq_ok h
    obtain rfl := ending_eq_ok h
    have hnone : (Entries.keys ([] : Entries String Json)).Nodup := List.nodup_nil
    exact keyedMembers_of_valueMembers n members hnone trivial hvalues
  | 0, .array _ _, _, h => by cases h
  | 0, .object _ _, _, h => by cases h
  | 0, .number none, _, h => by cases h
  | 0, .string none, _, h => by cases h
  | 0, .absent, _, h => by cases h
  | _ + 1, .number none, _, h => by cases h
  | _ + 1, .string none, _, h => by cases h
  | _ + 1, .absent, _, h => by cases h

theorem keyedItems_of_valueItems : ∀ (n : Nat) (items : List Outline) {values : List Json},
    valueItems n items = .ok values → KeyedItems values
  | _, [], _, h => by
    cases h
    trivial
  | n, item :: rest, _, h => by
    obtain ⟨first, hfirst, h⟩ := Except.bind_eq_ok h
    obtain ⟨others, hothers, h⟩ := Except.bind_eq_ok h
    cases h
    exact ⟨keyed_of_value n item hfirst, keyedItems_of_valueItems n rest hothers⟩

theorem keyedMembers_of_valueMembers : ∀ (n : Nat) (members : List (Option String × Outline))
    {before after : Entries String Json}, (Entries.keys before).Nodup → KeyedMembers before →
    valueMembers n before members = .ok after →
    (Entries.keys after).Nodup ∧ KeyedMembers after
  | _, [], _, _, hnodup, hkeyed, h => by
    cases h
    exact ⟨hnodup, hkeyed⟩
  | _, (none, _) :: _, _, _, _, _, h => by cases h
  | n, (some key, o) :: rest, before, _, hnodup, hkeyed, h => by
    obtain ⟨v, hv, h⟩ := Except.bind_eq_ok h
    exact keyedMembers_of_valueMembers n rest (Entries.nodup_keys_put hnodup)
      (keyedMembers_put (keyed_of_value n o hv) hkeyed) h

end

end Outline

/-- **A value that was read names every key once.** -/
theorem keyed_of_parse {text : String} {v : Json} (h : parse text = .ok v) : v.Keyed := by
  obtain ⟨w, hw, h⟩ := Except.bind_eq_ok h
  obtain rfl := Outline.ending_eq_ok h
  exact Outline.keyed_of_value _ _ hw

end Bindery.Json
