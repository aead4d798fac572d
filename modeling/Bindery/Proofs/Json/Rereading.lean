import Bindery.Data.Outcomes
import Bindery.Model.Encode
import Bindery.Proofs.Json.Keys

/-! What is read is read again.

A reader keeps to a way of writing if all that it gives is read again, as the same, from the
outline of what it is written as (`Rereads`). Values do (`rereads_value`): a key that came twice is
written once. So does a list of what keeps to it (`Rereads.list`), and a record whose members, set
one after the other, make the record that they were taken from (`Record.rereads`). What is known
of a record that was read is what holds of the blank one and is kept by everything that can be set
(`Record.Keeps.read`). -/
namespace Bindery.Json.Outline

/-- What a reader gives is read again from what it is written as. -/
def Rereads {α : Type} (read : Outline → Except Fault α) (encode : α → Json) : Prop :=
  ∀ ⦃o a⦄, read o = .ok a → read (ofJson (encode a)) = .ok a

/-! ### Values -/

/-- Every one of the values is read as itself. -/
def Settled (levels : Nat) (members : List (String × Json)) : Prop :=
  ∀ m ∈ members, value levels (ofJson m.2) = .ok m.2

theorem Settled.put {levels : Nat} {key : String} {v : Json} {members : List (String × Json)}
    (h : Settled levels members) (hv : value levels (ofJson v) = .ok v) :
    Settled levels (Entries.put key v members) := by
  induction members with
  | nil => exact List.forall_mem_singleton.2 hv
  | cons member rest ih =>
    obtain ⟨hmember, hrest⟩ := List.forall_mem_cons.1 h
    rw [Entries.put]
    split
    · exact List.forall_mem_cons.2 ⟨hv, hrest⟩
    · exact List.forall_mem_cons.2 ⟨hmember, ih hrest⟩

/-- Members that are read as themselves are put one after the other. -/
theorem Settled.valueMembers {levels : Nat} {members : List (String × Json)}
    (h : Settled levels members) (before : Entries String Json) :
    valueMembers levels before (ofMembers members) =
      .ok (members.foldl (fun entries m => Entries.put m.1 m.2 entries) before) := by
  induction members generalizing before with
  | nil => rfl
  | cons member rest ih =>
    obtain ⟨key, v⟩ := member
    obtain ⟨hv, hrest⟩ := List.forall_mem_cons.1 h
    rw [ofMembers, Outline.valueMembers, hv]
    exact ih hrest _

theorem Settled.valueMembers_nil {levels : Nat} {members : List (String × Json)}
    (h : Settled levels members) (hnodup : (Entries.keys members).Nodup) :
    Outline.valueMembers levels [] (ofMembers members) = .ok members := by
  rw [h.valueMembers]
  exact congrArg _ (Entries.ofList_eq_self_iff.2 hnodup)

/-- No key comes twice among members that were read. -/
theorem nodup_of_valueMembers {levels : Nat} {members : List (Option String × Outline)}
    {after : Entries String Json} (h : valueMembers levels [] members = .ok after) :
    (Entries.keys after).Nodup := by
  have hnone : (Entries.keys ([] : Entries String Json)).Nodup := List.nodup_nil
  exact (keyedMembers_of_valueMembers levels members hnone trivial h).1

mutual

/-- **A value that was read is read again.** -/
theorem rereads_value : ∀ (levels : Nat) (o : Outline) {v : Json}, value levels o = .ok v →
    value levels (ofJson v) = .ok v
  | _, .null, _, h => by
    cases h
    rfl
  | _, .bool _, _, h => by
    cases h
    rfl
  | _, .number (some _), _, h => by
    cases h
    rfl
  | _, .string (some _), _, h => by
    cases h
    rfl
  | n + 1, .array items closed, _, h => by
    obtain ⟨values, hvalues, h⟩ := Except.bind_eq_ok h
    obtain rfl := ending_eq_ok h
    rw [ofJson, value, rereads_valueItems n items hvalues]
    rfl
  | n + 1, .object members closed, _, h => by
    obtain ⟨values, hvalues, h⟩ := Except.bind_eq_ok h
    obtain rfl := ending_eq_ok h
    have hsettled := settled_of_valueMembers n members (List.forall_mem_nil _) hvalues
    rw [ofJson, value, hsettled.valueMembers_nil (nodup_of_valueMembers hvalues)]
    rfl
  | 0, .array _ _, _, h => by cases h
  | 0, .object _ _, _, h => by cases h
  | 0, .number none, _, h => by cases h
  | 0, .string none, _, h => by cases h
  | 0, .absent, _, h => by cases h
  | _ + 1, .number none, _, h => by cases h
  | _ + 1, .string none, _, h => by cases h
  | _ + 1, .absent, _, h => by cases h

theorem rereads_valueItems : ∀ (levels : Nat) (items : List Outline) {values : List Json},
    valueItems levels items = .ok values → valueItems levels (ofItems values) = .ok values
  | _, [], _, h => by
    cases h
    rfl
  | n, item :: rest, _, h => by
    obtain ⟨first, hfirst, h⟩ := Except.bind_eq_ok h
    obtain ⟨others, hothers, h⟩ := Except.bind_eq_ok h
    cases h
    rw [ofItems, valueItems, rereads_value n item hfirst, rereads_valueItems n rest hothers]
    rfl

theorem settled_of_valueMembers : ∀ (levels : Nat) (members : List (Option String × Outline))
    {before after : Entries String Json}, Settled levels before →
    valueMembers levels before members = .ok after → Settled levels after
  | _, [], _, _, hbefore, h => by
    cases h
    exact hbefore
  | _, (none, _) :: _, _, _, _, h => by cases h
  | n, (some key, o) :: rest, _, _, hbefore, h => by
    obtain ⟨v, hv, h⟩ := Except.bind_eq_ok h
    exact settled_of_valueMembers n rest (hbefore.put (rereads_value n o hv)) h

end

/-! ### Scalars, options and lists -/

section Lists
variable {α : Type} {levels : Nat} {encode : α → Json}

/-- A value that is there was given by something else than `null`. -/
theorem optional_eq_some_iff {read : Outline → Except Fault α} {o : Outline} {a : α} :
    o.optional read = .ok (some a) ↔ o ≠ .null ∧ read o = .ok a := by
  have hmap : (read o).map some = .ok (some a) ↔ read o = .ok a := by
    cases read o with
    | error fault => exact ⟨nofun, nofun⟩
    | ok b =>
      constructor
      · intro h
        cases h
        rfl
      · intro h
        cases h
        rfl
  cases o with
  | null => exact ⟨nofun, fun h => absurd rfl h.1⟩
  | bool _ | number _ | string _ | array _ _ | object _ _ | absent =>
    exact hmap.trans (and_iff_right nofun).symm

/-- What is never written as `null` is read again as a value that is there. -/
theorem Rereads.optional {read : Outline → Except Fault α} (h : Rereads read encode)
    (hnull : ∀ a, ofJson (encode a) ≠ .null) {o : Outline} {a : α}
    (hread : o.optional read = .ok (some a)) :
    (ofJson (encode a)).optional read = .ok (some a) :=
  optional_eq_some_iff.2 ⟨hnull a, h (optional_eq_some_iff.1 hread).2⟩

theorem eq_null_of_value {levels : Nat} {o : Outline} (h : value levels o = .ok .null) :
    o = .null := by
  unfold value at h
  split at h
  · rfl
  · cases h
  · cases h
  · cases h
  · cases h
  · obtain ⟨values, _, h⟩ := Except.bind_eq_ok h
    cases ending_eq_ok h
  · obtain ⟨values, _, h⟩ := Except.bind_eq_ok h
    cases ending_eq_ok h
  · cases h

theorem value_ne_null {levels : Nat} {o : Outline} {v : Json} (h : value levels o = .ok v)
    (ho : o ≠ .null) : ofJson v ≠ .null := by
  cases v with
  | null => exact absurd (eq_null_of_value h) ho
  | bool _ | number _ | string _ | array _ | object _ => exact nofun

/-- A value that is there is read again as one that is there. -/
theorem optional_value {levels : Nat} {o : Outline} {v : Json}
    (h : o.optional (value levels) = .ok (some v)) :
    (ofJson v).optional (value levels) = .ok (some v) := by
  obtain ⟨ho, hread⟩ := optional_eq_some_iff.1 h
  exact optional_eq_some_iff.2 ⟨value_ne_null hread ho, rereads_value levels o hread⟩

theorem list_ofJson {read : Nat → Outline → Except Fault α} {as : List α}
    (h : ∀ a ∈ as, read levels (ofJson (encode a)) = .ok a) :
    list (levels + 1) read (ofJson (.array (as.map encode))) = .ok as := by
  have hitems : (ofItems (as.map encode)).mapM (read levels) = .ok as := by
    induction as with
    | nil => rfl
    | cons a rest ih =>
      obtain ⟨ha, hrest⟩ := List.forall_mem_cons.1 h
      rw [List.map_cons, ofItems, List.mapM_cons, ha, ih hrest]
      rfl
  rw [ofJson, list, hitems]
  rfl

theorem Rereads.list {read : Nat → Outline → Except Fault α}
    (h : ∀ n, n + 1 = levels → Rereads (read n) encode) :
    Rereads (Outline.list levels read) fun as => .array (as.map encode) := by
  intro o as hread
  cases o with
  | array items closed =>
    cases levels with
    | zero => cases hread
    | succ n =>
      obtain ⟨values, hvalues, hread⟩ := Except.bind_eq_ok hread
      obtain rfl := ending_eq_ok hread
      refine list_ofJson fun a ha => ?_
      obtain ⟨item, _, hitem⟩ := Except.exists_of_mem_mapM hvalues a ha
      exact h n rfl hitem
  | null | bool _ | number _ | string _ | object _ _ | absent => cases hread

end Lists

/-! ### Records -/

namespace Record
variable {α : Type} {r : Record α} {P : α → Prop}

def setAll (r : Record α) : List (String × Json) → α → Except Fault α
  | [], a => .ok a
  | (key, v) :: rest, a => do r.setAll rest (← r.set key (ofJson v) a)

/-- Giving a field keeps a property of records. -/
def Keeps (r : Record α) (P : α → Prop) : Prop :=
  ∀ ⦃key o a a'⦄, P a → r.set key o a = .ok a' → P a'

theorem Keeps.readMembers (h : r.Keeps P) {members : List (Option String × Outline)}
    {given given' : List String} {a a' : α} (ha : P a)
    (hread : r.readMembers given members a = .ok (given', a')) : P a' := by
  induction members generalizing given a with
  | nil =>
    cases hread
    exact ha
  | cons member rest ih =>
    obtain ⟨key, o⟩ := member
    cases key with
    | none => cases hread
    | some key =>
      rw [Record.readMembers] at hread
      split at hread
      · split at hread
        · cases hread
        · obtain ⟨b, hb, hread⟩ := Except.bind_eq_ok hread
          exact ih (h ha hb) hread
      · split at hread
        · exact ih ha hread
        · cases hread

theorem Keeps.readItems (h : r.Keeps P) {fields given : List String} {items : List Outline}
    {a a' : α} (ha : P a) (hread : r.readItems fields items a = .ok (given, a')) : P a' := by
  induction items generalizing fields given a with
  | nil =>
    rw [Record.readItems] at hread
    cases hread
    exact ha
  | cons o rest ih =>
    cases fields with
    | nil => cases hread
    | cons field fields =>
      obtain ⟨b, hb, hread⟩ := Except.bind_eq_ok hread
      obtain ⟨⟨given', a''⟩, hrest, hread⟩ := Except.bind_eq_ok hread
      cases hread
      exact ih (h ha hb) hrest

theorem eq_of_required {p : Bool} {a b : α}
    (h : (if p then .ok a else .error .wrongShape : Except Fault α) = .ok b) : a = b := by
  split at h
  · exact Except.ok.inj h
  · cases h

/-- **What holds of a record that was read.** -/
theorem Keeps.read (h : r.Keeps P) (hblank : P r.blank) {o : Outline} {a : α}
    (hread : r.read o = .ok a) : P a := by
  cases o with
  | object members closed =>
    obtain ⟨⟨given, a'⟩, hmembers, hread⟩ := Except.bind_eq_ok hread
    obtain ⟨⟨given', a''⟩, hended, hread⟩ := Except.bind_eq_ok hread
    cases ending_eq_ok hended
    obtain rfl := eq_of_required hread
    exact h.readMembers hblank hmembers
  | array items closed =>
    obtain ⟨⟨given, a'⟩, hitems, hread⟩ := Except.bind_eq_ok hread
    obtain ⟨⟨given', a''⟩, hended, hread⟩ := Except.bind_eq_ok hread
    cases ending_eq_ok hended
    obtain rfl := eq_of_required hread
    exact h.readItems hblank hitems
  | null | bool _ | number _ | string _ | absent => cases hread

/-- Members whose keys are fields that were not given yet, each once, are set. -/
theorem readMembers_ofMembers {members : List (String × Json)} {given : List String} {a : α}
    (hknown : ∀ key ∈ Entries.keys members, key ∈ r.fields)
    (hnew : ∀ key ∈ Entries.keys members, key ∉ given) (hnodup : (Entries.keys members).Nodup) :
    r.readMembers given (ofMembers members) a =
      (r.setAll members a).map fun a' => ((Entries.keys members).reverse ++ given, a') := by
  induction members generalizing given a with
  | nil => rfl
  | cons member rest ih =>
    obtain ⟨key, v⟩ := member
    obtain ⟨hkey, hknown⟩ := List.forall_mem_cons.1 hknown
    obtain ⟨hfirst, hnew⟩ := List.forall_mem_cons.1 hnew
    obtain ⟨hrest, hnodup⟩ := List.nodup_cons.1 hnodup
    have hlater : ∀ k ∈ Entries.keys rest, k ∉ key :: given := by
      intro k hk
      rw [List.mem_cons, not_or]
      exact ⟨fun hkey => hrest (hkey ▸ hk), hnew k hk⟩
    rw [ofMembers, readMembers, if_pos hkey, if_neg hfirst, setAll]
    cases hset : r.set key (ofJson v) a with
    | error fault => rfl
    | ok b =>
      have hmore := ih (a := b) hknown hlater hnodup
      simp only [Entries.keys, List.map_cons, List.reverse_cons, List.append_assoc] at hmore ⊢
      exact hmore

/-- An object that names fields of the record, each once and all that are required, is read by
setting its members. -/
theorem read_ofJson {members : List (String × Json)} (hfields : r.fields.Nodup)
    (hkeys : (Entries.keys members).Sublist r.fields)
    (hrequired : ∀ key ∈ r.required, key ∈ Entries.keys members) :
    r.read (ofJson (.object members)) = r.setAll members r.blank := by
  have hread := readMembers_ofMembers (a := r.blank) (fun _ => hkeys.mem)
    (fun _ _ => List.not_mem_nil) (hkeys.nodup hfields)
  have hall : r.required.all (· ∈ (Entries.keys members).reverse ++ []) = true := by
    simpa using hrequired
  rw [ofJson, read, hread]
  cases r.setAll members r.blank with
  | error fault => rfl
  | ok a => exact if_pos hall

/-- Members under keys of `fields`, in their order, make one record of another. -/
structure Writes (r : Record α) (fields : List String) (members : List (String × Json))
    (a b : α) : Prop where
  keys : (Entries.keys members).Sublist fields
  setAll : r.setAll members a = .ok b

section Writing
variable {fields more : List String} {members others : List (String × Json)} {a b c : α}

theorem Writes.nil : r.Writes [] [] a a := ⟨.slnil, rfl⟩

theorem Writes.cons {key : String} {v : Json} (h : r.set key (ofJson v) a = .ok b)
    (hrest : r.Writes fields members b c) : r.Writes (key :: fields) ((key, v) :: members) a c where
  keys := hrest.keys.cons_cons key
  setAll := by
    rw [Record.setAll, h]
    exact hrest.setAll

theorem Writes.append (h : r.Writes fields members a b) (hmore : r.Writes more others b c) :
    r.Writes (fields ++ more) (members ++ others) a c where
  keys := by
    rw [Entries.keys, List.map_append]
    exact h.keys.append hmore.keys
  setAll := by
    have hset := h.setAll
    clear h
    induction members generalizing a with
    | nil =>
      cases hset
      exact hmore.setAll
    | cons member rest ih =>
      obtain ⟨key, v⟩ := member
      obtain ⟨a', hfirst, hrest⟩ := Except.bind_eq_ok hset
      rw [List.cons_append, Record.setAll, hfirst]
      exact ih hrest

/-- A member that may be left out: without it the record is as it was. -/
theorem Writes.given {β : Type} {key : String} {encode : β → Json} {value : Option β}
    (set : Option β → α) (hnone : set none = a)
    (hsome : ∀ x, value = some x → r.set key (ofJson (encode x)) a = .ok (set (some x))) :
    r.Writes [key] (given key encode value) a (set value) := by
  cases value with
  | none => exact ⟨List.nil_sublist _, congrArg _ hnone.symm⟩
  | some x => exact .cons (hsome x rfl) .nil

end Writing

/-- **When a record is read again.** It is written as an object of its fields, each at most once
and all that are required, and setting these one after the other makes it from the blank one. What
is known of it for that is what fields keep when they are given. -/
theorem rereads {encode : α → Json} {members : α → List (String × Json)}
    (hencode : ∀ a, encode a = .object (members a)) (hfields : r.fields.Nodup)
    (hrequired : ∀ a, ∀ key ∈ r.required, key ∈ Entries.keys (members a)) (hblank : P r.blank)
    (hkeeps : r.Keeps P) (hwrites : ∀ a, P a → r.Writes r.fields (members a) r.blank a) :
    Rereads r.read encode := by
  intro o a hread
  have h := hwrites a (hkeeps.read hblank hread)
  rw [hencode, read_ofJson hfields h.keys (hrequired a)]
  exact h.setAll

/-- A record below the top of a text. -/
theorem rereads_nested {levels : Nat} {make : Nat → Record α} {encode : α → Json}
    (h : ∀ n, n + 1 = levels → Rereads (make n).read encode) :
    Rereads (nested levels make) encode := by
  cases levels with
  | zero => exact nofun
  | succ n => exact h n rfl

end Record

end Bindery.Json.Outline
