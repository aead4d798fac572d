import Bindery.Assembly.Assemble
import Bindery.Data.Outcomes
import Bindery.Proofs.Model.Preparing
import Bindery.Proofs.Reference.Roots

/-! An assembly, unit by unit.

An assembly that succeeds is a sort of the prepared models, a run over the places of their
package and the output for what the run has written (`assemble_eq_ok`). The run assembles one
place after the other and keeps the warnings of each (`Assembles`); what a unit becomes is said
once, by `assembleUnit_eq_ok`. -/
namespace Bindery

namespace Assembler
variable {ε : Type} (a : Assembler ε)

/-- The models as they are put in order. -/
def prepared (models : List Model) : List Model :=
  ((Collector.forSwitches a.options.snakeCaseFields a.options.stripDefaultNone).registerAll
    models).models

/-- The models of a unit when their references have been resolved, and what they ask for. -/
def resolved (plan : UnitPlan) : UnitNames × List Model :=
  plan.resolveWith a.index a.options.singleSource plan.models

theorem prepared_refielded (models : List Model) :
    List.Forall₂ Model.Refielded models (a.prepared models) := by
  obtain ⟨registered, hmodels, h⟩ := Collector.registerAll_refielded
    (.forSwitches a.options.snakeCaseFields a.options.stripDefaultNone) models
  rw [prepared, hmodels]
  exact h

variable {a}

/-! ### One unit -/

section Units
variable {requireUpdate : List String} {s s' : Stats} {plan : UnitPlan} {unit : GeneratedUnit}
  {slot : Slot} {key : UnitKey} {slots : List (UnitKey × Slot)}
  {units : Entries UnitKey GeneratedUnit}

/-- What a unit becomes, and what is recorded of it. -/
theorem assembleUnit_eq_ok (h : a.assembleUnit requireUpdate s plan = .ok (s', unit)) :
    ∃ written count, a.collapse (a.resolved plan).2 = .ok (written, count) ∧
      let imports := (a.resolved plan).1.imports.insertAll (written.flatMap a.renderer.imports)
      let deferred := deferredNames requireUpdate plan.models
      a.formatText (a.unitText imports written deferred) = .ok unit.body ∧
        s' = (if a.options.withImports then (s.recordDuplicates count).recordImports imports.size
          else s.recordDuplicates count).recordDeferredUpdates plan.key.text deferred.length
            a.deferred.isSome := by
  obtain ⟨⟨written, count⟩, hcollapse, h⟩ := Except.bind_eq_ok h
  obtain ⟨body, hbody, h⟩ := Except.bind_eq_ok h
  cases h
  exact ⟨written, count, hcollapse, hbody, rfl⟩

/-- A unit adds the warning of the deferred updates that nothing writes, and no other. -/
theorem mem_warnings_assembleUnit (h : a.assembleUnit requireUpdate s plan = .ok (s', unit))
    {w : Warning} :
    w ∈ s'.warnings ↔ w ∈ s.warnings ∨ ((deferredNames requireUpdate plan.models).length ≠ 0 ∧
      a.deferred = none ∧ w = .deferredUpdatesSkipped plan.key.text
        (deferredNames requireUpdate plan.models).length) := by
  obtain ⟨written, count, _, _, rfl⟩ := assembleUnit_eq_ok h
  have hbefore : ∀ imports : Imports, (if a.options.withImports then
      (s.recordDuplicates count).recordImports imports.size
        else s.recordDuplicates count).warnings = s.warnings := by
    intro imports
    split <;> rfl
  rw [Stats.recordDeferredUpdates]
  by_cases hnone : (deferredNames requireUpdate plan.models).length = 0
  · simp [hnone, hbefore]
  · cases hdeferred : a.deferred with
    | none => simp [hnone, Stats.warn, hbefore]
    | some write => simp [hnone, hbefore]

/-- A place of the package never takes a warning back. -/
theorem warnings_assembleSlot (h : a.assembleSlot requireUpdate s slot = .ok (s', unit)) :
    s.warnings ⊆ s'.warnings := by
  cases slot with
  | placeholder =>
    cases h
    exact fun _ hw => hw
  | planned plan =>
    exact fun w hw => (mem_warnings_assembleUnit h).2 (.inl hw)

/-! ### All units -/

/-- The places of a package are assembled one after the other. -/
inductive Assembles (a : Assembler ε) (requireUpdate : List String) :
    Stats → List (UnitKey × Slot) → Stats → Entries UnitKey GeneratedUnit → Prop where
  | nil {s : Stats} : Assembles a requireUpdate s [] s []
  | cons {s s' s'' : Stats} {key : UnitKey} {slot : Slot} {unit : GeneratedUnit}
      {rest : List (UnitKey × Slot)} {units : Entries UnitKey GeneratedUnit} :
      a.assembleSlot requireUpdate s slot = .ok (s', unit) →
      Assembles a requireUpdate s' rest s'' units →
      Assembles a requireUpdate s ((key, slot) :: rest) s'' ((key, unit) :: units)

theorem assembles_of_assembleSlots
    (h : a.assembleSlots requireUpdate s slots = .ok (s', units)) :
    Assembles a requireUpdate s slots s' units := by
  induction slots generalizing s units with
  | nil =>
    cases h
    exact .nil
  | cons entry rest ih =>
    obtain ⟨key, slot⟩ := entry
    obtain ⟨⟨s₁, unit⟩, hslot, h⟩ := Except.bind_eq_ok h
    obtain ⟨⟨s₂, units'⟩, hrest, h⟩ := Except.bind_eq_ok h
    cases h
    exact .cons hslot (ih hrest)

theorem Assembles.keys_eq (h : Assembles a requireUpdate s slots s' units) :
    Entries.keys units = Entries.keys slots := by
  induction h with
  | nil => rfl
  | cons _ _ ih => exact congrArg _ ih

theorem Assembles.warnings_subset (h : Assembles a requireUpdate s slots s' units) :
    s.warnings ⊆ s'.warnings := by
  induction h with
  | nil => exact fun _ hw => hw
  | cons hslot _ ih => exact fun _ hw => ih (warnings_assembleSlot hslot hw)

/-- Whatever place is assembled becomes a unit at its key, and its warnings are kept. -/
theorem Assembles.exists_unit (h : Assembles a requireUpdate s slots s' units)
    (hmem : (key, slot) ∈ slots) :
    ∃ s₁ s₂ unit, a.assembleSlot requireUpdate s₁ slot = .ok (s₂, unit) ∧ (key, unit) ∈ units ∧
      s₂.warnings ⊆ s'.warnings := by
  induction h with
  | nil => exact absurd hmem List.not_mem_nil
  | @cons s₁ s₂ s' key' slot' unit rest units hslot hrest ih =>
    cases List.mem_cons.1 hmem with
    | inl he =>
      cases he
      exact ⟨s₁, s₂, unit, hslot, List.mem_cons_self, hrest.warnings_subset⟩
    | inr hmem =>
      obtain ⟨t₁, t₂, unit', hslot', hunit, hwarnings⟩ := ih hmem
      exact ⟨t₁, t₂, unit', hslot', List.mem_cons_of_mem _ hunit, hwarnings⟩

end Units

/-! ### The whole -/

theorem assemble_eq_ok {models : List Model} {stats : Stats} {output : AssemblyOutput}
    (h : a.assemble models = .ok (stats, output)) :
    ∃ placed units, sortModels a.passes (a.prepared models) = .ok placed ∧
      Assembles a placed.requireUpdate
        ((({} : Stats).recordCycles (detectCycles (a.prepared models))).recordSorted
          placed.models.length placed.fallback)
        (Partition.ofModels (Entries.values placed.models)) stats units ∧
      output = .ofUnits units := by
  simp only [assemble] at h
  split at h
  · cases h
  · next placed hsort =>
    obtain ⟨⟨s, units⟩, hrun, h⟩ := Except.bind_eq_ok h
    cases h
    exact ⟨placed, units, hsort, assembles_of_assembleSlots hrun, rfl⟩

end Assembler

namespace AssemblyOutput

/-- The text at a key of the package. -/
def text? : AssemblyOutput → UnitKey → Option String
  | .single text, key => if key = UnitKey.root then some text else none
  | .modules units, key => (List.lookup key units).map GeneratedUnit.body

/-- Each unit is in the output, also if it is all there is. -/
theorem text?_ofUnits {units : Entries UnitKey GeneratedUnit} (hkeys : (Entries.keys units).Nodup)
    {key : UnitKey} {unit : GeneratedUnit} (hmem : (key, unit) ∈ units) :
    (ofUnits units).text? key = some unit.body := by
  have hlookup := (Entries.lookup_eq_some hkeys).2 hmem
  unfold ofUnits
  split
  · next only body =>
    cases List.mem_singleton.1 hmem
    by_cases hroot : key = UnitKey.root
    · simp [text?, hroot]
    · simp [text?, hroot]
  · simp [text?, hlookup]

end AssemblyOutput

end Bindery
