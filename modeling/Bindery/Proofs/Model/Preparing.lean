import Mathlib.Data.List.Forall2
import Bindery.Model.Preparation

/-! What preparing models leaves alone.

A collector changes the fields of the models that it registers and nothing else
(`registerAll_refielded`), so their names, namespaces and references are what they were. -/
namespace Bindery

def Model.Refielded (m m' : Model) : Prop := ∃ fields, m' = { m with fields }

namespace Model.Refielded
variable {m m' : Model}

theorem name_eq (h : Refielded m m') : m'.name = m.name := by
  obtain ⟨fields, rfl⟩ := h
  rfl

theorem path_eq (h : Refielded m m') : m'.path = m.path := by
  obtain ⟨fields, rfl⟩ := h
  rfl

theorem references_eq (h : Refielded m m') : m'.references = m.references := by
  obtain ⟨fields, rfl⟩ := h
  rfl

theorem qualifiedName_eq (h : Refielded m m') : m'.qualifiedName = m.qualifiedName := by
  obtain ⟨fields, rfl⟩ := h
  rfl

end Model.Refielded

namespace Collector

/-- Registered models come behind those that were there, each with its own fields. -/
theorem registerAll_refielded (c : Collector) (models : List Model) :
    ∃ registered, (c.registerAll models).models = c.models ++ registered ∧
      List.Forall₂ Model.Refielded models registered := by
  induction models generalizing c with
  | nil => exact ⟨[], by simp [registerAll], .nil⟩
  | cons m rest ih =>
    obtain ⟨registered, hmodels, hrest⟩ := ih (c.register m)
    refine ⟨{ m with fields := (FieldRule.applyEach c.rules m.fields).2 } :: registered, ?_,
      .cons ⟨_, rfl⟩ hrest⟩
    rw [registerAll, List.foldl_cons, ← registerAll, hmodels, register]
    simp

end Collector

end Bindery
