import Bindery.Layout.Partition

/-! What a unit of a package holds.

Placing a namespace takes places above it that were free and one place for the namespace
itself, so nothing that is planned is ever planned otherwise: whatever unit stands in the
finished package holds the models of its namespace, in their order
(`models_of_find?`). -/
namespace Bindery.Partition

/-- Every planned unit holds the models of its namespace. -/
def Holds (models : List Model) (slots : Partition) : Prop :=
  ∀ key plan, slots.find? key = some (.planned plan) → plan.models = modelsAt models plan.path

theorem holds_nil (models : List Model) : Holds models [] := fun _ _ h => by cases h

variable {models : List Model} {slots : Partition}

/-- A placeholder takes the place of nothing. -/
theorem holds_putNew (h : Holds models slots) (key : UnitKey) :
    Holds models (Entries.putNew key .placeholder slots) := by
  intro k plan hk
  rw [Entries.putNew] at hk
  split at hk
  · exact h k plan hk
  · rw [find?, Entries.lookup_put] at hk
    split at hk
    · cases hk
    · exact h k plan hk

theorem holds_addAncestors (h : Holds models slots) (path : List String) :
    Holds models (slots.addAncestors path) := by
  rw [addAncestors]
  generalize ancestors path = above
  induction above generalizing slots with
  | nil => exact h
  | cons p rest ih => exact ih (holds_putNew h _)

theorem holds_add (h : Holds models slots) (path : List String) :
    Holds models (add models slots path) := by
  intro k plan hk
  rw [add, find?, Entries.lookup_put] at hk
  split at hk
  · cases hk
    rfl
  · exact holds_addAncestors h path k plan hk

/-- **A unit holds the models of its namespace.** -/
theorem models_of_find? {models : List Model} {key : UnitKey} {plan : UnitPlan}
    (h : (ofModels models).find? key = some (.planned plan)) :
    plan.models = modelsAt models plan.path := by
  have hall : ∀ (paths : List (List String)) (slots : Partition), Holds models slots →
      Holds models (paths.foldl (add models) slots) := by
    intro paths
    induction paths with
    | nil => exact fun _ hs => hs
    | cons path rest ih => exact fun _ hs => ih _ (holds_add hs path)
  exact hall _ _ (holds_nil models) key plan h

end Bindery.Partition
