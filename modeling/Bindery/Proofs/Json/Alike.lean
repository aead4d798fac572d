import Mathlib.Data.List.Forall2
import Bindery.Json.Basic

/-! Values that say the same.

`Json.Alike same anyOrder` is the least congruence on values that takes numbers for each other
if `same` says so and, if `anyOrder` holds, lets members of different keys change places.
`Alike.shape` reads it off two values part by part: arrays of alike values are alike item by
item, and objects of alike values bind each key to alike values. `Alike.array` and `Alike.object`
put alike parts together again. -/
namespace Bindery.Json

/-- Two values are alike: equal but for numbers that are the same, and but for the order of
members with different keys if any order is as good. -/
inductive Alike (same : Number → Number → Prop) (anyOrder : Prop) : Json → Json → Prop where
  | refl (v : Json) : Alike same anyOrder v v
  | symm {v w : Json} : Alike same anyOrder v w → Alike same anyOrder w v
  | trans {u v w : Json} : Alike same anyOrder u v → Alike same anyOrder v w →
      Alike same anyOrder u w
  | number {n n' : Number} : same n n' → Alike same anyOrder (.number n) (.number n')
  | item {front back : List Json} {v w : Json} : Alike same anyOrder v w →
      Alike same anyOrder (.array (front ++ v :: back)) (.array (front ++ w :: back))
  | member {front back : List (String × Json)} {key : String} {v w : Json} :
      Alike same anyOrder v w →
      Alike same anyOrder (.object (front ++ (key, v) :: back))
        (.object (front ++ (key, w) :: back))
  | swap {front back : List (String × Json)} {key key' : String} {v w : Json} :
      anyOrder → key ≠ key' →
      Alike same anyOrder (.object (front ++ (key, v) :: (key', w) :: back))
        (.object (front ++ (key', w) :: (key, v) :: back))

section Alike
variable {same : Number → Number → Prop} {anyOrder : Prop}

/-! ### Putting parts together -/

/-- Where numbers are the same and orders as good, values are alike. -/
theorem Alike.mono {same' : Number → Number → Prop} {anyOrder' : Prop} {v w : Json}
    (h : Alike same anyOrder v w) (hsame : ∀ n n', same n n' → same' n n')
    (horder : anyOrder → anyOrder') : Alike same' anyOrder' v w := by
  induction h with
  | refl v => exact .refl v
  | symm _ ih => exact ih.symm
  | trans _ _ ih ih' => exact ih.trans ih'
  | number h => exact .number (hsame _ _ h)
  | item _ ih => exact .item ih
  | member _ ih => exact .member ih
  | swap h hne => exact .swap (horder h) hne

theorem Alike.array_append (front : List Json) {items items' : List Json}
    (h : List.Forall₂ (Alike same anyOrder) items items') :
    Alike same anyOrder (.array (front ++ items)) (.array (front ++ items')) := by
  induction h generalizing front with
  | nil => exact .refl _
  | @cons v w rest rest' hv _ ih =>
    have hrest := ih (front ++ [w])
    rw [List.append_assoc, List.append_assoc] at hrest
    exact (Alike.item hv).trans hrest

theorem Alike.array {items items' : List Json}
    (h : List.Forall₂ (Alike same anyOrder) items items') :
    Alike same anyOrder (.array items) (.array items') :=
  Alike.array_append [] h

/-- Two members with one key and alike values. -/
def MemberAlike (same : Number → Number → Prop) (anyOrder : Prop) (a b : String × Json) : Prop :=
  a.1 = b.1 ∧ Alike same anyOrder a.2 b.2

theorem Alike.object_append (front : List (String × Json)) {members members' : List (String × Json)}
    (h : List.Forall₂ (MemberAlike same anyOrder) members members') :
    Alike same anyOrder (.object (front ++ members)) (.object (front ++ members')) := by
  induction h generalizing front with
  | nil => exact .refl _
  | @cons a b rest rest' hab _ ih =>
    obtain ⟨key, v⟩ := a
    obtain ⟨key', w⟩ := b
    obtain ⟨rfl, hv⟩ : key = key' ∧ Alike same anyOrder v w := hab
    have hrest := ih (front ++ [(key, w)])
    rw [List.append_assoc, List.append_assoc] at hrest
    exact (Alike.member hv).trans hrest

theorem Alike.object {members members' : List (String × Json)}
    (h : List.Forall₂ (MemberAlike same anyOrder) members members') :
    Alike same anyOrder (.object members) (.object members') :=
  Alike.object_append [] h

/-! ### Taking parts out -/

/-- What alike values have in common, one level deep. -/
inductive Shape (same : Number → Number → Prop) (anyOrder : Prop) : Json → Json → Prop where
  | null : Shape same anyOrder .null .null
  | bool (b : Bool) : Shape same anyOrder (.bool b) (.bool b)
  | number (n n' : Number) : Shape same anyOrder (.number n) (.number n')
  | string (s : String) : Shape same anyOrder (.string s) (.string s)
  | array {items items' : List Json} :
      (∀ i : Nat, Option.Rel (Alike same anyOrder) items[i]? items'[i]?) →
      Shape same anyOrder (.array items) (.array items')
  | object {members members' : List (String × Json)} :
      (∀ key, Option.Rel (Alike same anyOrder) (members.lookup key) (members'.lookup key)) →
      Shape same anyOrder (.object members) (.object members')

theorem optionRel_refl (o : Option Json) : Option.Rel (Alike same anyOrder) o o := by
  cases o with
  | none => exact .none
  | some v => exact .some (.refl v)

theorem optionRel_symm {o o' : Option Json} (h : Option.Rel (Alike same anyOrder) o o') :
    Option.Rel (Alike same anyOrder) o' o := by
  cases h with
  | none => exact .none
  | some h => exact .some h.symm

theorem optionRel_trans {o o' o'' : Option Json} (h : Option.Rel (Alike same anyOrder) o o')
    (h' : Option.Rel (Alike same anyOrder) o' o'') : Option.Rel (Alike same anyOrder) o o'' := by
  cases h with
  | none => exact h'
  | some h =>
    cases h' with
    | some h' => exact .some (h.trans h')

theorem Shape.refl (v : Json) : Shape same anyOrder v v := by
  cases v with
  | null => exact .null
  | bool b => exact .bool b
  | number n => exact .number n n
  | string s => exact .string s
  | array items => exact .array fun _ => optionRel_refl _
  | object members => exact .object fun _ => optionRel_refl _

theorem Shape.symm {v w : Json} (h : Shape same anyOrder v w) : Shape same anyOrder w v := by
  cases h with
  | null => exact .null
  | bool b => exact .bool b
  | number n n' => exact .number n' n
  | string s => exact .string s
  | array h => exact .array fun i => optionRel_symm (h i)
  | object h => exact .object fun key => optionRel_symm (h key)

theorem Shape.trans {u v w : Json} (h : Shape same anyOrder u v) (h' : Shape same anyOrder v w) :
    Shape same anyOrder u w := by
  cases h with
  | null => exact h'
  | bool b => exact h'
  | string s => exact h'
  | number n n' =>
    cases h' with
    | number _ n'' => exact .number n n''
  | array h =>
    cases h' with
    | array h' => exact .array fun i => optionRel_trans (h i) (h' i)
  | object h =>
    cases h' with
    | object h' => exact .object fun key => optionRel_trans (h key) (h' key)

/-- It makes no difference to a lookup which of two keys comes first. -/
theorem lookup_swap {key key' k : String} {v w : Json} {back : List (String × Json)}
    (hne : key ≠ key') :
    ((key, v) :: (key', w) :: back).lookup k = ((key', w) :: (key, v) :: back).lookup k := by
  by_cases hk : k = key
  · subst hk
    simp [List.lookup_cons, beq_false_of_ne hne]
  · simp [List.lookup_cons, beq_false_of_ne hk]

/-- Alike values have one shape and alike parts. -/
theorem Alike.shape {v w : Json} (h : Alike same anyOrder v w) : Shape same anyOrder v w := by
  induction h with
  | refl v => exact .refl v
  | symm _ ih => exact ih.symm
  | trans _ _ ih ih' => exact ih.trans ih'
  | @number n n' _ => exact .number n n'
  | @item front back v w h _ =>
    refine .array fun i => ?_
    rw [List.getElem?_append, List.getElem?_append]
    split
    · exact optionRel_refl _
    · cases i - front.length with
      | zero => exact .some h
      | succ j => exact optionRel_refl _
  | @member front back key v w h _ =>
    refine .object fun k => ?_
    rw [List.lookup_append, List.lookup_append]
    cases front.lookup k with
    | some u => exact optionRel_refl _
    | none =>
      rw [Option.none_or, Option.none_or, List.lookup_cons, List.lookup_cons]
      split
      · exact .some h
      · exact optionRel_refl _
  | @swap front back key key' v w _ hne =>
    refine .object fun k => ?_
    rw [List.lookup_append, List.lookup_append, lookup_swap hne]
    exact optionRel_refl _

theorem Alike.items {items items' : List Json}
    (h : Alike same anyOrder (.array items) (.array items')) :
    List.Forall₂ (Alike same anyOrder) items items' := by
  cases h.shape with | array hshape => ?_
  clear h
  induction items generalizing items' with
  | nil =>
    cases items' with
    | nil => exact .nil
    | cons w rest' => cases hshape 0
  | cons v rest ih =>
    cases items' with
    | nil => cases hshape 0
    | cons w rest' =>
      have hhead : Option.Rel (Alike same anyOrder) (some v) (some w) := hshape 0
      cases hhead with
      | some hv => exact .cons hv (ih fun i => hshape (i + 1))

theorem Alike.lookup {members members' : List (String × Json)}
    (h : Alike same anyOrder (.object members) (.object members')) (key : String) :
    Option.Rel (Alike same anyOrder) (members.lookup key) (members'.lookup key) := by
  cases h.shape with
  | object h => exact h key

theorem Alike.string {s s' : String} (h : Alike same anyOrder (.string s) (.string s')) :
    s = s' := by
  cases h.shape with
  | string s => rfl

theorem Alike.bool {b b' : Bool} (h : Alike same anyOrder (.bool b) (.bool b')) : b = b' := by
  cases h.shape with
  | bool b => rfl

end Alike

end Bindery.Json
