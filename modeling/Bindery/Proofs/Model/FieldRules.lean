import Bindery.Model.Preparation
import Bindery.Proofs.Text.Remembering

/-! What registering models does to their fields.

Rules remember conversions, but what they do to a field does not depend on what they remember
(`FieldRule.apply_spec`). So every registered model has its fields changed one by one, by all rules
in order, whatever was registered before (`Collector.models_registerAll`). -/
namespace Bindery

/-- A field with its name in snake case; a name that changes is kept for the data. -/
def Field.inSnakeCase (f : Field) : Field :=
  if Text.snakeCase f.name = f.name then f
  else { f with name := Text.snakeCase f.name, wireAlias := some f.name }

namespace FieldRule
variable {rule : FieldRule} {rules : List FieldRule}

/-- What a rule does to a field. -/
def effect : FieldRule → Field → Field
  | .snakeCase _, f => f.inSnakeCase
  | .stripDefaultNone, f => { f with stripDefaultNone := true }

/-- What a rule remembers is right. -/
def Right : FieldRule → Prop
  | .snakeCase cache => cache.Right
  | .stripDefaultNone => True

/-- What rules do to a field, one after the other. -/
def effects (rules : List FieldRule) (f : Field) : Field :=
  (rules.map effect).foldl (fun f change => change f) f

theorem renameField_eq {cache : Text.SnakeCache} (h : cache.Right) (f : Field) :
    (renameField cache f).2 = f.inSnakeCase ∧ (renameField cache f).1.Right := by
  obtain ⟨hname, hright⟩ := h.convert f.name
  unfold renameField Field.inSnakeCase
  by_cases hempty : f.name = ""
  · have hsame : Text.snakeCase "" = "" := by decide
    rw [if_pos hempty, hempty, if_pos hsame]
    exact ⟨rfl, h⟩
  · rw [if_neg hempty]
    dsimp only
    rw [hname]
    exact ⟨rfl, hright⟩

/-- A rule changes a field by its effect, and afterwards it has the same one. -/
theorem apply_spec (h : rule.Right) (f : Field) :
    (rule.apply f).2 = rule.effect f ∧ (rule.apply f).1.Right ∧
      (rule.apply f).1.effect = rule.effect := by
  cases rule with
  | snakeCase cache =>
    obtain ⟨hfield, hright⟩ := renameField_eq h f
    exact ⟨hfield, hright, rfl⟩
  | stripDefaultNone => exact ⟨rfl, trivial, rfl⟩

theorem applyAll_spec (h : rule.Right) (fields : List Field) :
    (rule.applyAll fields).2 = fields.map rule.effect ∧ (rule.applyAll fields).1.Right ∧
      (rule.applyAll fields).1.effect = rule.effect := by
  induction fields generalizing rule with
  | nil => exact ⟨rfl, h, rfl⟩
  | cons f rest ih =>
    obtain ⟨hfield, hright, heffect⟩ := apply_spec h f
    obtain ⟨hfields, hright', heffect'⟩ := ih hright
    refine ⟨?_, hright', heffect'.trans heffect⟩
    rw [applyAll, List.map_cons]
    dsimp only
    rw [hfield, hfields, heffect]

theorem applyEach_spec (h : ∀ rule ∈ rules, rule.Right) (fields : List Field) :
    (applyEach rules fields).2 = fields.map (effects rules) ∧
      (∀ rule ∈ (applyEach rules fields).1, rule.Right) ∧
      (applyEach rules fields).1.map effect = rules.map effect := by
  induction rules generalizing fields with
  | nil =>
    have hid : effects [] = id := rfl
    rw [applyEach, hid, List.map_id]
    exact ⟨rfl, h, rfl⟩
  | cons rule rest ih =>
    obtain ⟨hrule, hrest⟩ := List.forall_mem_cons.1 h
    obtain ⟨hfields, hright, heffect⟩ := applyAll_spec hrule fields
    obtain ⟨hfields', hright', heffect'⟩ := ih hrest (fields.map rule.effect)
    rw [applyEach]
    dsimp only
    rw [hfields, List.map_cons, List.map_cons, heffect, heffect']
    refine ⟨?_, List.forall_mem_cons.2 ⟨hright, hright'⟩, rfl⟩
    rw [hfields', List.map_map]
    rfl

end FieldRule

namespace Collector
variable {c : Collector}

/-- A model as a collector registers it. -/
def prepare (c : Collector) (m : Model) : Model :=
  { m with fields := m.fields.map (FieldRule.effects c.rules) }

theorem register_spec (h : ∀ rule ∈ c.rules, rule.Right) (m : Model) :
    (c.register m).models = c.models ++ [c.prepare m] ∧
      (∀ rule ∈ (c.register m).rules, rule.Right) ∧ (c.register m).prepare = c.prepare := by
  obtain ⟨hfields, hright, heffects⟩ := FieldRule.applyEach_spec h m.fields
  refine ⟨?_, hright, ?_⟩
  · rw [register, prepare, ← hfields]
  · funext m'
    have hsame : FieldRule.effects (c.register m).rules = FieldRule.effects c.rules := by
      funext f
      exact congrArg (List.foldl (fun f change => change f) f) heffects
    rw [prepare, prepare, hsame]

/-- **Every model is registered by itself**: what came before makes no difference to it. -/
theorem models_registerAll (h : ∀ rule ∈ c.rules, rule.Right) (models : List Model) :
    (c.registerAll models).models = c.models ++ models.map c.prepare := by
  induction models generalizing c with
  | nil => simp [registerAll]
  | cons m rest ih =>
    obtain ⟨hmodels, hright, hprepare⟩ := register_spec h m
    have hrest := ih hright
    rw [hmodels, hprepare] at hrest
    rw [registerAll, List.foldl_cons, ← registerAll, hrest, List.map_cons, List.append_assoc]
    rfl

/-- What the two switches make of models. -/
theorem models_forSwitches (snakeCaseFields stripDefaultNone : Bool) (models : List Model) :
    ((forSwitches snakeCaseFields stripDefaultNone).registerAll models).models =
      models.map (forSwitches snakeCaseFields stripDefaultNone).prepare := by
  refine models_registerAll ?_ models
  intro rule hrule
  rcases List.mem_append.1 hrule with hrule | hrule <;> split at hrule
  · obtain rfl := List.mem_singleton.1 hrule
    exact Text.SnakeCache.right_standard
  · cases hrule
  · obtain rfl := List.mem_singleton.1 hrule
    exact trivial
  · cases hrule

end Collector

/-- What the two switches do to a field: its name first, then its default. -/
theorem FieldRule.effects_forSwitches (snakeCaseFields stripDefaultNone : Bool) (f : Field) :
    effects (Collector.forSwitches snakeCaseFields stripDefaultNone).rules f =
      let renamed := if snakeCaseFields then f.inSnakeCase else f
      { renamed with stripDefaultNone := stripDefaultNone || renamed.stripDefaultNone } := by
  unfold effects Collector.forSwitches
  cases snakeCaseFields <;> cases stripDefaultNone <;> simp [effect]

end Bindery
