import Bindery.Proofs.Assembly.Run
import Bindery.Proofs.Layout.Slots
import Bindery.Proofs.Reuse.Collapsing

/-! Definitions before uses, in the text of a unit.

The sort puts a model behind those that it refers to or flags it (`Settled.before_or_flagged`).
The stages that follow keep what the sort has arranged: a unit takes the models of its
namespace in their order, and whatever resolving and collapsing make of a model, it keeps its
place and its name (`names_resolveAll`, `names_collapse`). So in the text of a unit a model stands
behind those that it refers to, or its name is among the deferred updates of that unit
(`defined_before_use`). -/
namespace Bindery
open Bindery.Partition Placement

/-! ### After the sort -/

/-- A model stands behind what it refers to, or is flagged. -/
theorem Placement.Settled.before_or_flagged {p : Placement} (h : Settled p) {m r : Model}
    (hm : m ∈ Entries.values p.models) (hr : r ∈ Entries.values p.models)
    (href : r.qualifiedName ∈ m.references) :
    [r, m].Sublist (Entries.values p.models) ∨ m.qualifiedName ∈ p.requireUpdate := by
  obtain ⟨e, he, rfl⟩ := List.mem_map.1 hm
  obtain ⟨er, her, rfl⟩ := List.mem_map.1 hr
  obtain ⟨before, after, hsplit⟩ := List.append_of_mem he
  rw [← h.keyed e he]
  refine (h.supplied before e after hsplit _ href).imp_left fun ⟨_, hbefore⟩ => ?_
  obtain ⟨e', he', hkey⟩ := List.mem_map.1 hbefore
  have hmem : e' ∈ p.models := by
    rw [hsplit]
    exact List.mem_append_left _ he'
  have hsame : e' = er :=
    List.inj_on_of_nodup_map h.nodup_names hmem her (hkey.trans (h.keyed er her).symm)
  subst hsame
  have hfirst : [e'.2].Sublist (Entries.values before) :=
    List.singleton_sublist.2 (List.mem_map_of_mem he')
  have hlast : [e.2].Sublist (Entries.values (e :: after)) :=
    List.singleton_sublist.2 (List.mem_map_of_mem List.mem_cons_self)
  rw [hsplit, Entries.values, List.map_append]
  exact hfirst.append hlast

theorem Placement.Settled.before_or_flagged_at {p : Placement} (h : Settled p)
    {path : List String} {m r : Model} (hm : m ∈ modelsAt (Entries.values p.models) path)
    (hr : r ∈ modelsAt (Entries.values p.models) path) (href : r.qualifiedName ∈ m.references) :
    [r, m].Sublist (modelsAt (Entries.values p.models) path) ∨
      m.qualifiedName ∈ p.requireUpdate := by
  obtain ⟨hm, hpath⟩ := List.mem_filter.1 hm
  obtain ⟨hr, hpathr⟩ := List.mem_filter.1 hr
  refine (h.before_or_flagged hm hr href).imp_left fun hbefore => ?_
  have hunit := hbefore.filter fun m => decide (m.path = path)
  rwa [List.filter_eq_self.2 (by simp [of_decide_eq_true hpath, of_decide_eq_true hpathr])] at hunit

/-- The models stand under their qualified names, each under another one. -/
theorem Placement.Settled.nodup_qualifiedNames {p : Placement} (h : Settled p) :
    ((Entries.values p.models).map Model.qualifiedName).Nodup := by
  have hnames : (Entries.values p.models).map Model.qualifiedName = p.names := by
    rw [Entries.values, List.map_map]
    exact List.map_congr_left fun e he => (h.keyed e he).symm
  exact hnames ▸ h.nodup_names

/-! ### In a unit -/

theorem UnitNames.names_resolveAll (scope : UnitScope) (s : UnitNames) (models : List Model) :
    (s.resolveAll scope models).2.map Model.name = models.map Model.name := by
  induction models generalizing s with
  | nil => rfl
  | cons m rest ih =>
    have hname : (s.resolve scope m).2.name = m.name := rfl
    rw [resolveAll, List.map_cons, List.map_cons, hname, ih]

namespace Assembler
variable {ε : Type} {a : Assembler ε} {models written : List Model} {deferred : List String}
  {plan : UnitPlan} {stats : Stats} {output : AssemblyOutput} {placed : Placement}

/-- Whatever is written in place of models has their names. -/
theorem names_collapse {count : Nat} (h : a.collapse models = .ok (written, count)) :
    written.map Model.name = models.map Model.name := by
  unfold collapse at h
  split at h
  · split at h
    · cases h
    · next d out hrun =>
      cases h
      obtain ⟨_, rfl⟩ := Deduplicator.seen_nil.processAll hrun
      rw [List.map_map, ← Deduplicator.names_inPlaces [] models]
      rfl
  · cases h
    rfl

/-- What is sorted are the models that were given, with other fields. -/
theorem settled_prepared (hd : (models.map Model.qualifiedName).Nodup)
    (hsort : sortModels a.passes (a.prepared models) = .ok placed) :
    Settled placed ∧ (Entries.values placed.models).Perm (a.prepared models) := by
  have hnames : models.map Model.qualifiedName = (a.prepared models).map Model.qualifiedName :=
    map_eq_map_of_forall₂ (a.prepared_refielded models) fun _ _ _ h => h.qualifiedName_eq.symm
  obtain ⟨hsettled, hperm⟩ := settled_of_sortModels (hnames ▸ hd) hsort
  refine ⟨hsettled, ?_⟩
  simpa [Entries.values, Function.comp_def] using hperm.map Prod.snd

/-- Each model is sorted, with other fields, and nothing else is. -/
theorem sorted_refielded (hd : (models.map Model.qualifiedName).Nodup)
    (hsort : sortModels a.passes (a.prepared models) = .ok placed) :
    (∀ m ∈ models, ∃ m' ∈ Entries.values placed.models, m.Refielded m') ∧
      ∀ m' ∈ Entries.values placed.models, ∃ m ∈ models, m.Refielded m' := by
  have hperm := (settled_prepared hd hsort).2
  constructor
  · intro m hm
    obtain ⟨m', hm', h⟩ := exists_of_mem_left (a.prepared_refielded models) hm
    exact ⟨m', hperm.mem_iff.2 hm', h⟩
  · exact fun m' hm' => exists_of_mem_right (a.prepared_refielded models) (hperm.mem_iff.1 hm')

/-- In an assembly of `models` the unit `plan` is written: its models have been resolved and
collapsed to `written`, and `deferred` are the names of those of its models that need an
update. -/
structure Writes (a : Assembler ε) (models : List Model) (output : AssemblyOutput)
    (plan : UnitPlan) (written : List Model) (deferred : List String) : Prop where
  planned : ∃ placed, sortModels a.passes (a.prepared models) = .ok placed ∧
    (plan.key, Slot.planned plan) ∈ ofModels (Entries.values placed.models) ∧
    deferred = deferredNames placed.requireUpdate plan.models
  collapsed : ∃ count, a.collapse (a.resolved plan).2 = .ok (written, count)
  text : ∃ text, output.text? plan.key = some text ∧ a.formatText (a.unitText
    ((a.resolved plan).1.imports.insertAll (written.flatMap a.renderer.imports)) written
    deferred) = .ok text

/-- Every planned unit is written, and warns of the updates that nothing writes. -/
theorem exists_writes (h : a.assemble models = .ok (stats, output))
    (hsort : sortModels a.passes (a.prepared models) = .ok placed)
    (hplan : (plan.key, Slot.planned plan) ∈ ofModels (Entries.values placed.models)) :
    ∃ written, a.Writes models output plan written (deferredNames placed.requireUpdate plan.models) ∧
      ∀ name ∈ deferredNames placed.requireUpdate plan.models, a.deferred = none →
        .deferredUpdatesSkipped plan.key.text
          (deferredNames placed.requireUpdate plan.models).length ∈ stats.warnings := by
  obtain ⟨placed', units, hsort', hrun, rfl⟩ := assemble_eq_ok h
  obtain rfl : placed = placed' := Except.ok.inj (hsort.symm.trans hsort')
  have hkeys : (Entries.keys units).Nodup := hrun.keys_eq ▸ (laid_ofModels _).nodup_keys
  obtain ⟨s₁, s₂, unit, hunit, hmem, hwarnings⟩ := hrun.exists_unit hplan
  obtain ⟨written, count, hcollapse, htext, _⟩ := assembleUnit_eq_ok hunit
  refine ⟨written, ⟨⟨placed, hsort, hplan, rfl⟩, ⟨count, hcollapse⟩, unit.body,
    AssemblyOutput.text?_ofUnits hkeys hmem, htext⟩, fun name hname hnone => hwarnings ?_⟩
  refine (mem_warnings_assembleUnit hunit).2 (.inr ⟨?_, hnone, rfl⟩)
  exact List.length_eq_zero_iff.not.2 (List.ne_nil_of_mem hname)

theorem Writes.names_eq (h : a.Writes models output plan written deferred) :
    written.map Model.name = plan.models.map Model.name := by
  obtain ⟨count, hcollapse⟩ := h.collapsed
  rw [names_collapse hcollapse]
  exact UnitNames.names_resolveAll _ _ plan.models

end Assembler

/-- Models of one namespace with different qualified names have different names. -/
theorem nodup_names_of_path {models : List Model} {path : List String}
    (hpath : ∀ m ∈ models, m.path = path) (hd : (models.map Model.qualifiedName).Nodup) :
    (models.map Model.name).Nodup := by
  have hnames : models.map Model.qualifiedName = (models.map Model.name).map fun name =>
      ({ name, path } : Model).qualifiedName := by
    rw [List.map_map]
    refine List.map_congr_left fun m hm => ?_
    simp [Model.qualifiedName, Model.moduleName, hpath m hm]
  exact (hnames ▸ hd).of_map _

open Assembler

section Whole
variable {ε : Type} {a : Assembler ε} {models written : List Model} {deferred : List String}
  {plan : UnitPlan} {stats : Stats} {output : AssemblyOutput}

/-- Each namespace with models has its unit. -/
theorem exists_unit_of_mem (hd : (models.map Model.qualifiedName).Nodup)
    (hinit : ∀ m ∈ models, "__init__" ∉ m.path) (h : a.assemble models = .ok (stats, output))
    {m : Model} (hm : m ∈ models) :
    ∃ plan written deferred, plan.path = m.path ∧ a.Writes models output plan written deferred := by
  obtain ⟨placed, units, hsort, _⟩ := assemble_eq_ok h
  obtain ⟨hsorted, hgiven⟩ := sorted_refielded hd hsort
  obtain ⟨m', hm', hfields⟩ := hsorted m hm
  have hinit' : ∀ m' ∈ Entries.values placed.models, "__init__" ∉ m'.path := by
    intro m' hm'
    obtain ⟨m, hm, hfields⟩ := hgiven m' hm'
    exact hfields.path_eq ▸ hinit m hm
  have hpath : m.path ∈ paths (Entries.values placed.models) :=
    mem_paths.2 (List.mem_map.2 ⟨m', hm', hfields.path_eq⟩)
  let plan := unitAmong (Entries.values placed.models) (paths (Entries.values placed.models)) m.path
  have hplan : (plan.key, Slot.planned plan) ∈ ofModels (Entries.values placed.models) :=
    (mem_ofModels_planned_iff hinit').2 ⟨m.path, due_unitAmong hpath⟩
  obtain ⟨written, hwrites, _⟩ := exists_writes h hsort hplan
  exact ⟨plan, written, _, rfl, hwrites⟩

/-- A unit that is written holds the models of its namespace, in the order of the sort. -/
theorem models_of_mem_ofModels {sorted : List Model}
    (hplan : (plan.key, Slot.planned plan) ∈ ofModels sorted) :
    plan.models = modelsAt sorted plan.path :=
  models_of_find? ((Entries.lookup_eq_some (laid_ofModels sorted).nodup_keys).2 hplan)

/-- In a unit a model stands behind what it refers to, or is deferred. -/
theorem Assembler.Writes.before_or_deferred (hd : (models.map Model.qualifiedName).Nodup)
    (h : a.assemble models = .ok (stats, output))
    (hwrites : a.Writes models output plan written deferred) {m r : Model} (hm : m ∈ models)
    (hr : r ∈ models) (hpath : m.path = plan.path) (hpathr : r.path = plan.path)
    (href : r.qualifiedName ∈ m.references) :
    [r.name, m.name].Sublist (written.map Model.name) ∨
      (m.name ∈ deferred ∧ (a.deferred = none →
        .deferredUpdatesSkipped plan.key.text deferred.length ∈ stats.warnings)) := by
  obtain ⟨placed, hsort, hplan, rfl⟩ := hwrites.planned
  obtain ⟨hsettled, _⟩ := settled_prepared hd hsort
  obtain ⟨hsorted, _⟩ := sorted_refielded hd hsort
  -- What was sorted are the two models with other fields, which have no part in this.
  obtain ⟨m', hm', hfields⟩ := hsorted m hm
  obtain ⟨r', hr', hfieldsr⟩ := hsorted r hr
  rw [← hfieldsr.qualifiedName_eq, ← hfields.references_eq] at href
  rw [← hfields.name_eq, ← hfieldsr.name_eq, hwrites.names_eq]
  have hmine : m' ∈ plan.models := by
    rw [models_of_mem_ofModels hplan]
    exact List.mem_filter.2 ⟨hm', decide_eq_true (hfields.path_eq.trans hpath)⟩
  have hits : r' ∈ plan.models := by
    rw [models_of_mem_ofModels hplan]
    exact List.mem_filter.2 ⟨hr', decide_eq_true (hfieldsr.path_eq.trans hpathr)⟩
  have horder : [r', m'].Sublist plan.models ∨ m'.qualifiedName ∈ placed.requireUpdate := by
    rw [models_of_mem_ofModels hplan] at hmine hits ⊢
    exact hsettled.before_or_flagged_at hmine hits href
  cases horder with
  | inl hbefore => exact .inl (hbefore.map Model.name)
  | inr hflagged =>
    have hname : m'.name ∈ deferredNames placed.requireUpdate plan.models :=
      List.mem_map_of_mem (List.mem_filter.2 ⟨hmine, decide_eq_true hflagged⟩)
    obtain ⟨_, _, hwarns⟩ := exists_writes h hsort hplan
    exact .inr ⟨hname, hwarns _ hname⟩

/-- No name is written twice in a unit. -/
theorem Assembler.Writes.nodup_names (hd : (models.map Model.qualifiedName).Nodup)
    (hwrites : a.Writes models output plan written deferred) :
    (written.map Model.name).Nodup := by
  obtain ⟨placed, hsort, hplan, _⟩ := hwrites.planned
  obtain ⟨hsettled, _⟩ := settled_prepared hd hsort
  have hpath : ∀ m ∈ modelsAt (Entries.values placed.models) plan.path, m.path = plan.path :=
    fun m hm => of_decide_eq_true (List.mem_filter.1 hm).2
  rw [hwrites.names_eq, models_of_mem_ofModels hplan]
  exact nodup_names_of_path hpath
    ((List.filter_sublist.map Model.qualifiedName).nodup hsettled.nodup_qualifiedNames)

/-- **Definitions before uses.** Whatever the switches, the budget and the renderer: if no two
models have one qualified name, no segment of a namespace is `__init__` and the assembly
succeeds, each namespace with models has its unit. In every unit no name is written twice, and
a model that refers to a model of its namespace, be it itself, stands behind that model, or its
name is one of the deferred updates of the unit, which are counted in a warning if nothing
writes them. -/
theorem defined_before_use (hd : (models.map Model.qualifiedName).Nodup)
    (hinit : ∀ m ∈ models, "__init__" ∉ m.path) (h : a.assemble models = .ok (stats, output)) :
    (∀ m ∈ models, ∃ plan written deferred, plan.path = m.path ∧
      a.Writes models output plan written deferred) ∧
    ∀ plan written deferred, a.Writes models output plan written deferred →
      (written.map Model.name).Nodup ∧
      ∀ m ∈ models, ∀ r ∈ models, m.path = plan.path → r.path = plan.path →
        r.qualifiedName ∈ m.references →
        [r.name, m.name].Sublist (written.map Model.name) ∨
          (m.name ∈ deferred ∧ (a.deferred = none →
            .deferredUpdatesSkipped plan.key.text deferred.length ∈ stats.warnings)) := by
  constructor
  · exact fun m hm => exists_unit_of_mem hd hinit h hm
  · intro plan written deferred hwrites
    refine ⟨hwrites.nodup_names hd, fun m hm r hr hpath hpathr href => ?_⟩
    exact hwrites.before_or_deferred hd h hm hr hpath hpathr href

end Whole

/-- Two models that refer to each other and have one structure, each written as its name. -/
theorem defined_before_use_in_ring :
    let a : Assembler Empty :=
      { options := { reuseModels := true, withImports := false }
        renderer := ⟨Model.name, fun _ => []⟩
        deferred := some (Text.join " ") }
    let models : List Model :=
      [{ name := "A", path := ["p"], references := .ofList ["p.B"] },
        { name := "B", path := ["p"], references := .ofList ["p.A"] }]
    (models.map Model.qualifiedName).Nodup ∧ (∀ m ∈ models, "__init__" ∉ m.path) ∧
      ∃ stats output, a.assemble models = .ok (stats, output) ∧
        output.text? ["p.py"] = some "A\n\n\nB\n\n\nA B" ∧
        ∃ plan written deferred, plan.path = ["p"] ∧ a.Writes models output plan written deferred ∧
          (["B", "A"].Sublist (written.map Model.name) ∨ "A" ∈ deferred) := by
  intro a models
  have hd : (models.map Model.qualifiedName).Nodup := by decide
  have hinit : ∀ m ∈ models, "__init__" ∉ m.path := by decide
  refine ⟨hd, hinit, ?_⟩
  have hdone : (a.assemble models).toOption.map (fun done => done.2.text? ["p.py"]) =
      some (some "A\n\n\nB\n\n\nA B") := by decide
  cases hrun : a.assemble models with
  | error e => simp [hrun, Except.toOption] at hdone
  | ok done =>
    obtain ⟨stats, output⟩ := done
    obtain ⟨hunits, horder⟩ := defined_before_use hd hinit hrun
    obtain ⟨plan, written, deferred, hpath, hwrites⟩ := hunits _ List.mem_cons_self
    rw [hrun] at hdone
    refine ⟨stats, output, rfl, Option.some.inj hdone, plan, written, deferred, hpath, hwrites, ?_⟩
    obtain ⟨_, hbefore⟩ := horder plan written deferred hwrites
    exact (hbefore _ List.mem_cons_self _ (List.mem_cons_of_mem _ List.mem_cons_self) hpath.symm
      hpath.symm (by decide)).imp_right And.left

end Bindery
