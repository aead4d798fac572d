import Bindery.Model.Basic

/-! Renaming goes through the types of a model in order.

However deep a type is nested, renaming visits the types of a model in the order of
`Model.allTypes`, hands each one to the renaming function as it was before, and changes
its name only. `Renames f s ts s' ts'` says this of a list of types
(`renameTypes_renames`), so that what a visit keeps is carried over a whole model by
induction on a list. -/
namespace Bindery

namespace DataType
variable {σ : Type} (f : σ → DataType → σ × String)

/-- The types `ts` are renamed one after the other, from the state `s` to the state `s'`,
and become `ts'`. Parameters are types of their own. -/
inductive Renames : σ → List DataType → σ → List DataType → Prop where
  | nil {s : σ} : Renames s [] s []
  | cons {s s' : σ} {t t' : DataType} {ts ts' : List DataType} :
      t'.name = (f s t).2 → t'.home = t.home → t'.origin = t.origin →
      t'.container = t.container → Renames (f s t).1 ts s' ts' →
      Renames s (t :: ts) s' (t' :: ts')

variable {f}

theorem Renames.append {s s' s'' : σ} {ts ts' us us' : List DataType}
    (h : Renames f s ts s' ts') (h' : Renames f s' us s'' us') :
    Renames f s (ts ++ us) s'' (ts' ++ us') := by
  induction h with
  | nil => exact h'
  | cons hname hhome horigin hcontainer _ ih =>
    exact .cons hname hhome horigin hcontainer (ih h')

mutual

theorem rename_renames : ∀ (s : σ) (t : DataType),
    Renames f s (preorder t) (rename f s t).1 (preorder (rename f s t).2)
  | s, ⟨name, home, origin, container, parameters⟩ => by
    simp only [rename, preorder]
    exact .cons rfl rfl rfl rfl (renameAll_renames _ parameters)

theorem renameAll_renames : ∀ (s : σ) (ts : List DataType),
    Renames f s (preorders ts) (renameAll f s ts).1 (preorders (renameAll f s ts).2)
  | _, [] => .nil
  | s, t :: rest => by
    simp only [renameAll, preorders]
    exact (rename_renames s t).append (renameAll_renames _ rest)

end

theorem preorders_append (ts us : List DataType) :
    preorders (ts ++ us) = preorders ts ++ preorders us := by
  induction ts with
  | nil => rfl
  | cons t rest ih => rw [List.cons_append, preorders, preorders, ih, List.append_assoc]

end DataType

namespace Model
open DataType
variable {σ : Type} {f : σ → DataType → σ × String}

theorem renameFields_renames (s : σ) (fields : List Field) :
    Renames f s (preorders (fields.map Field.type)) (renameFields f s fields).1
      (preorders ((renameFields f s fields).2.map Field.type)) := by
  induction fields generalizing s with
  | nil => exact .nil
  | cons field rest ih =>
    simp only [renameFields, List.map_cons, preorders]
    exact (rename_renames s field.type).append (ih _)

/-- **Renaming the types of a model renames them in order.** -/
theorem renameTypes_renames (s : σ) (m : Model) :
    Renames f s m.allTypes (m.renameTypes f s).1 (m.renameTypes f s).2.allTypes := by
  simp only [renameTypes, allTypes, types, preorders_append]
  exact (renameFields_renames s m.fields).append (renameAll_renames _ m.extraTypes)

end Model

end Bindery
