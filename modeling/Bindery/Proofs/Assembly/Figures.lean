import Mathlib.Algebra.Ring.Nat
import Bindery.Proofs.Assembly.DefinitionOrder
import Bindery.Proofs.Reuse.Redirecting

/-! The figures of an assembly.

While the places of a package are assembled, each of them adds to the figures: a unit, whether it is
one of a directory, its deferred updates and its duplicates (`Accounts`). What one place adds is
read off `assembleUnit_eq_ok` (`accounts_assembleSlot`), and the run adds it up
(`Assembles.accounts`). Then the places are counted by their keys (`countP_isDirectory`,
`countP_isNone`), and since every model is in one unit, so is every flag (`length_deferredNames`).
So the figures say what is in the output (`figures_exact`). -/
namespace Bindery
open Bindery.Partition Placement

def Warning.skipped : Warning → Nat
  | .fallbackOrdering => 0
  | .deferredUpdatesSkipped _ count => count

/-- How many models need an update, whether it is written or not. -/
def Stats.updates (s : Stats) : Nat := s.deferredUpdates + (s.warnings.map Warning.skipped).sum

/-- Whether a place is the file of a directory. -/
def Slot.isDirectory : Slot → Bool
  | .placeholder => true
  | .planned plan => plan.kind ≠ .leaf

def AssemblyOutput.keys : AssemblyOutput → List UnitKey
  | .single _ => [UnitKey.root]
  | .modules units => Entries.keys units

theorem AssemblyOutput.keys_ofUnits (units : Entries UnitKey GeneratedUnit) :
    (ofUnits units).keys = Entries.keys units ∧ (ofUnits units).size = units.length := by
  unfold ofUnits
  split
  · next key unit =>
    split
    · next hroot => exact ⟨congrArg (fun key => [key]) hroot.symm, rfl⟩
    · exact ⟨rfl, rfl⟩
  · exact ⟨rfl, rfl⟩

/-- Updates are counted or warned of, and nothing else is changed. -/
theorem Stats.exists_recordDeferredUpdates (s : Stats) (unit : String) (count : Nat)
    (rendered : Bool) : ∃ deferredUpdates warnings,
      s.recordDeferredUpdates unit count rendered = { s with deferredUpdates, warnings } ∧
        deferredUpdates + (warnings.map Warning.skipped).sum = s.updates + count ∧
        warnings.count .fallbackOrdering = s.warnings.count .fallbackOrdering := by
  unfold recordDeferredUpdates
  split
  · next hnone => exact ⟨s.deferredUpdates, s.warnings, rfl, by rw [hnone]; rfl, rfl⟩
  · split
    · exact ⟨s.deferredUpdates + count, s.warnings, rfl, Nat.add_right_comm _ _ _, rfl⟩
    · refine ⟨s.deferredUpdates, _, rfl, ?_, ?_⟩
      · simp [updates, Warning.skipped, Nat.add_assoc]
      · simp

namespace Assembler
variable {ε : Type} {a : Assembler ε} {requireUpdate : List String} {s s' s'' : Stats}
  {plan : UnitPlan} {unit : GeneratedUnit} {slot : Slot} {key : UnitKey} {slots rest : Partition}
  {units : Entries UnitKey GeneratedUnit}

/-- How many models of a unit come after one of their structure, if these are collapsed. -/
def duplicates (a : Assembler ε) (plan : UnitPlan) : Nat :=
  if a.options.reuseModels then Deduplicator.repeats (a.resolved plan).2 else 0

/-- What the places of a package add to the figures. -/
structure Accounts (a : Assembler ε) (requireUpdate : List String) (s : Stats) (slots : Partition)
    (s' : Stats) : Prop where
  sorted : s'.modelsSorted = s.modelsSorted
  units : s'.unitsGenerated = s.unitsGenerated + slots.length
  directories : s'.packageUnits = s.packageUnits + slots.countP fun e => e.2.isDirectory
  placeholders : s'.placeholderUnits = s.placeholderUnits + slots.countP fun e => e.2.plan?.isNone
  updates : s'.updates = s.updates +
    (slots.plans.flatMap fun plan => deferredNames requireUpdate plan.models).length
  duplicates : s'.duplicatesCollapsed = s.duplicatesCollapsed + (slots.plans.map a.duplicates).sum
  fallbacks : s'.warnings.count .fallbackOrdering = s.warnings.count .fallbackOrdering

theorem accounts_nil : Accounts a requireUpdate s [] s := by
  constructor <;> simp [plans]

theorem Accounts.append (h : Accounts a requireUpdate s slots s')
    (h' : Accounts a requireUpdate s' rest s'') :
    Accounts a requireUpdate s (slots ++ rest) s'' where
  sorted := h'.sorted.trans h.sorted
  units := by rw [h'.units, h.units, List.length_append, Nat.add_assoc]
  directories := by rw [h'.directories, h.directories, List.countP_append, Nat.add_assoc]
  placeholders := by rw [h'.placeholders, h.placeholders, List.countP_append, Nat.add_assoc]
  updates := by
    rw [h'.updates, h.updates, plans, plans, plans, List.filterMap_append, List.flatMap_append,
      List.length_append, Nat.add_assoc]
  duplicates := by
    rw [h'.duplicates, h.duplicates, plans, plans, plans, List.filterMap_append, List.map_append,
      List.sum_append, Nat.add_assoc]
  fallbacks := h'.fallbacks.trans h.fallbacks

/-! ### One place -/

/-- Models of different names are collapsed if they come after one of their structure. -/
theorem count_of_collapse {models written : List Model} {count : Nat}
    (hnames : (models.map Model.name).Nodup) (h : a.collapse models = .ok (written, count)) :
    count = if a.options.reuseModels then Deduplicator.repeats models else 0 := by
  unfold collapse at h
  split at h
  · next hreuse =>
    rw [if_pos hreuse]
    split at h
    · cases h
    · next d out hrun =>
      cases h
      exact Deduplicator.seen_nil.collapsed_processAll hnames rfl hrun
  · next hreuse =>
    rw [if_neg hreuse]
    cases h
    rfl

/-- A unit adds its updates and its duplicates, and then imports. -/
theorem exists_assembleUnit (hnames : (plan.models.map Model.name).Nodup)
    (h : a.assembleUnit requireUpdate s plan = .ok (s', unit)) :
    ∃ importsEmitted deferredUpdates warnings,
      s' = { s with importsEmitted, deferredUpdates, warnings
                    duplicatesCollapsed := s.duplicatesCollapsed + a.duplicates plan } ∧
        deferredUpdates + (warnings.map Warning.skipped).sum =
          s.updates + (deferredNames requireUpdate plan.models).length ∧
        warnings.count .fallbackOrdering = s.warnings.count .fallbackOrdering := by
  obtain ⟨written, count, hcollapse, _, hstats⟩ := assembleUnit_eq_ok h
  have hresolved : ((a.resolved plan).2.map Model.name).Nodup := by
    have hsame := UnitNames.names_resolveAll (UnitScope.ofPlan plan a.index a.options.singleSource)
      (UnitNames.ofPlan plan) plan.models
    exact hsame ▸ hnames
  obtain rfl : count = a.duplicates plan := count_of_collapse hresolved hcollapse
  obtain ⟨importsEmitted, himports⟩ : ∃ importsEmitted, (if a.options.withImports then
      (s.recordDuplicates (a.duplicates plan)).recordImports
        ((a.resolved plan).1.imports.insertAll (written.flatMap a.renderer.imports)).size
      else s.recordDuplicates (a.duplicates plan)) =
      { s with importsEmitted, duplicatesCollapsed := s.duplicatesCollapsed + a.duplicates plan } := by
    split <;> exact ⟨_, rfl⟩
  obtain ⟨deferredUpdates, warnings, hrecord, hupdates, hfallbacks⟩ :=
    Stats.exists_recordDeferredUpdates
      { s with importsEmitted, duplicatesCollapsed := s.duplicatesCollapsed + a.duplicates plan }
      plan.key.text (deferredNames requireUpdate plan.models).length a.deferred.isSome
  rw [himports, hrecord] at hstats
  exact ⟨importsEmitted, deferredUpdates, warnings, hstats, hupdates, hfallbacks⟩

/-- **What one place adds.** -/
theorem accounts_assembleSlot
    (hnames : ∀ plan, slot.plan? = some plan → (plan.models.map Model.name).Nodup)
    (h : a.assembleSlot requireUpdate s slot = .ok (s', unit)) :
    Accounts a requireUpdate s [(key, slot)] s' := by
  cases slot with
  | placeholder =>
    cases h
    constructor <;> rfl
  | planned plan =>
    obtain ⟨importsEmitted, deferredUpdates, warnings, rfl, hupdates, hfallbacks⟩ :=
      exists_assembleUnit (hnames plan rfl) h
    refine ⟨rfl, rfl, ?_, rfl, ?_, rfl, hfallbacks⟩
    · by_cases hleaf : plan.kind = .leaf <;> simp [Stats.recordUnit, Slot.isDirectory, hleaf]
    · refine hupdates.trans ?_
      simp [plans, Slot.plan?, Stats.updates, Stats.recordUnit]

/-- **What all places add.** -/
theorem Assembles.accounts (h : Assembles a requireUpdate s slots s' units)
    (hnames : ∀ plan ∈ plans slots, (plan.models.map Model.name).Nodup) :
    Accounts a requireUpdate s slots s' := by
  induction h with
  | nil => exact accounts_nil
  | @cons s₁ s₂ s₃ key slot unit rest units hslot _ ih =>
    have hfirst : Accounts a requireUpdate s₁ [(key, slot)] s₂ :=
      accounts_assembleSlot (fun plan hplan => hnames plan
        (List.mem_filterMap.2 ⟨_, List.mem_cons_self, hplan⟩)) hslot
    refine hfirst.append (ih fun plan hplan => hnames plan ?_)
    obtain ⟨e, he, hplan⟩ := List.mem_filterMap.1 hplan
    exact List.mem_filterMap.2 ⟨e, List.mem_cons_of_mem _ he, hplan⟩

end Assembler

/-! ### Places by their keys -/

section Places
variable {models : List Model} {path : List String} {key : UnitKey} {slot : Slot}

/-- The init file of a directory is told by its name. -/
theorem Partition.Due.isDirectory_iff (h : Due models path key slot)
    (hinit : ∀ m ∈ models, "__init__" ∉ m.path) :
    slot.isDirectory = true ↔ key.getLast? = some UnitKey.initFile := by
  cases h with
  | root => simp [Slot.isDirectory, UnitKey.root]
  | package => simp [Slot.isDirectory, UnitKey.init]
  | @leaf parents last hmodels =>
    obtain ⟨m, hm, hpath⟩ := List.mem_map.1 hmodels
    have hlast : last ≠ "__init__" := fun he => hinit m hm (by simp [hpath, he])
    simp [Slot.isDirectory, UnitKey.leaf, append_py_eq_initFile, hlast]
  | placeholder => simp [Slot.isDirectory, UnitKey.init]

/-- A placeholder is the init file of a directory in which no model lives. -/
theorem Partition.Due.isNone_iff (h : Due models path key slot)
    (hinit : ∀ m ∈ models, "__init__" ∉ m.path) :
    slot.plan?.isNone = true ↔
      key.getLast? = some UnitKey.initFile ∧ key.dropLast ∉ models.map Model.path := by
  cases h with
  | root hmodels => simpa [Slot.plan?, UnitKey.root] using hmodels
  | package hmodels => simpa [Slot.plan?, UnitKey.init] using hmodels
  | @leaf parents last hmodels =>
    obtain ⟨m, hm, hpath⟩ := List.mem_map.1 hmodels
    have hlast : last ≠ "__init__" := fun he => hinit m hm (by simp [hpath, he])
    simp [Slot.plan?, UnitKey.leaf, append_py_eq_initFile, hlast]
  | placeholder hnone => simpa [Slot.plan?, UnitKey.init] using hnone

theorem Partition.exists_due (hinit : ∀ m ∈ models, "__init__" ∉ m.path)
    (h : (key, slot) ∈ ofModels models) : ∃ path, Due models path key slot := by
  cases slot with
  | placeholder => exact (mem_ofModels_placeholder_iff hinit).1 h
  | planned plan => exact (mem_ofModels_planned_iff hinit).1 h

/-- As many places are of directories as keys end in the init file. -/
theorem Partition.countP_isDirectory (hinit : ∀ m ∈ models, "__init__" ∉ m.path) :
    ((ofModels models).countP fun e => e.2.isDirectory) =
      (Entries.keys (ofModels models)).countP fun key => key.getLast? = some UnitKey.initFile := by
  rw [Entries.keys, List.countP_map]
  refine List.countP_congr fun e he => ?_
  obtain ⟨path, hdue⟩ := exists_due hinit he
  simpa using hdue.isDirectory_iff hinit

/-- As many places are placeholders as init files stand in a directory without models. -/
theorem Partition.countP_isNone (hinit : ∀ m ∈ models, "__init__" ∉ m.path) :
    ((ofModels models).countP fun e => e.2.plan?.isNone) =
      (Entries.keys (ofModels models)).countP fun key =>
        key.getLast? = some UnitKey.initFile ∧ key.dropLast ∉ models.map Model.path := by
  rw [Entries.keys, List.countP_map]
  refine List.countP_congr fun e he => ?_
  obtain ⟨path, hdue⟩ := exists_due hinit he
  simpa using hdue.isNone_iff hinit

/-- Every model is in one unit. -/
theorem Partition.perm_flatMap_plans (hinit : ∀ m ∈ models, "__init__" ∉ m.path) :
    ((ofModels models).plans.flatMap UnitPlan.models).Perm models := by
  have hall : (paths models).filter (fun p => ¬ Overtaken (paths models) p) = paths models :=
    List.filter_eq_self.2 fun p hp => decide_eq_true (not_overtaken hinit hp)
  have hplans := perm_plans models
  rw [hall] at hplans
  refine (hplans.flatMap_right _).trans ?_
  rw [List.flatMap_map]
  exact perm_flatMap_filter Model.path (nodup_paths models) fun m hm =>
    mem_paths.2 (List.mem_map_of_mem hm)

end Places

/-- Every flag is a deferred name in one unit. -/
theorem length_deferredNames {placed : Placement} (h : Settled placed) {units : List UnitPlan}
    (hperm : (units.flatMap UnitPlan.models).Perm (Entries.values placed.models)) :
    (units.flatMap fun plan => Assembler.deferredNames placed.requireUpdate plan.models).length =
      placed.requireUpdate.length := by
  have hnames : placed.names = (Entries.values placed.models).map Model.qualifiedName := by
    rw [Entries.values, List.map_map]
    exact List.map_congr_left h.keyed
  have hflags : (placed.names.filter (· ∈ placed.requireUpdate)).Perm placed.requireUpdate := by
    refine (List.perm_ext_iff_of_nodup (h.nodup_names.filter _) h.nodup_flags).2 fun name => ?_
    simpa using h.flags_placed name
  calc (units.flatMap fun plan => Assembler.deferredNames placed.requireUpdate plan.models).length
      = ((units.flatMap UnitPlan.models).filter
          (·.qualifiedName ∈ placed.requireUpdate)).length := by
        rw [List.filter_flatMap, List.length_flatMap, List.length_flatMap]
        simp [Assembler.deferredNames]
    _ = ((Entries.values placed.models).filter
          (·.qualifiedName ∈ placed.requireUpdate)).length := (hperm.filter _).length_eq
    _ = (placed.names.filter (· ∈ placed.requireUpdate)).length := by
        rw [hnames, List.filter_map, List.length_map]
        rfl
    _ = placed.requireUpdate.length := hflags.length_eq

/-- No two models of a unit have one name. -/
theorem nodup_names_of_mem_plans {placed : Placement} (h : Settled placed) {plan : UnitPlan}
    (hplan : plan ∈ (ofModels (Entries.values placed.models)).plans) :
    (plan.models.map Model.name).Nodup := by
  obtain ⟨key, hmem⟩ := mem_plans.1 hplan
  rw [models_of_find? ((Entries.lookup_eq_some (laid_ofModels _).nodup_keys).2 hmem)]
  exact nodup_names_of_path (fun m hm => of_decide_eq_true (List.mem_filter.1 hm).2)
    ((List.filter_sublist.map Model.qualifiedName).nodup h.nodup_qualifiedNames)

/-! ### The whole -/

/-- When models have been sorted, the figures are their number and how the order came about. -/
theorem Stats.exists_recordSorted (cycles : List (List String)) (count : Nat) (fallback : Bool) :
    ∃ warnings, (({} : Stats).recordCycles cycles).recordSorted count fallback =
        { modelsSorted := count, fallback, cycles, warnings } ∧
      (warnings.map Warning.skipped).sum = 0 ∧
      warnings.count .fallbackOrdering = if fallback then 1 else 0 := by
  cases fallback with
  | false => exact ⟨[], by simp [recordSorted, recordCycles], rfl, rfl⟩
  | true =>
    exact ⟨[.fallbackOrdering], by simp [recordSorted, recordCycles, warn], rfl, by decide⟩

namespace Assembler
variable {ε : Type} {a : Assembler ε} {models : List Model} {stats : Stats}
  {output : AssemblyOutput}

/-- The models are sorted with the paths that they were given with. -/
theorem perm_paths_sorted {placed : Placement} (hd : (models.map Model.qualifiedName).Nodup)
    (hsort : sortModels a.passes (a.prepared models) = .ok placed) :
    ((Entries.values placed.models).map Model.path).Perm (models.map Model.path) := by
  have hsame : models.map Model.path = (a.prepared models).map Model.path := by
    rw [← List.forall₂_eq_eq_eq, List.forall₂_map_left_iff, List.forall₂_map_right_iff]
    exact (a.prepared_refielded models).imp fun _ _ h => h.path_eq.symm
  rw [hsame]
  exact (settled_prepared hd hsort).2.map Model.path

/-- **The figures of an assembly are those of its output.** Whatever the switches, the budget and
the renderer: if no two models have one qualified name, no segment of a namespace is `__init__` and
the assembly succeeds, as many models were sorted as were given, and as many units are reported as
have been put out, each at a key of its own. Units of directories are those whose file is the init
file, placeholders those of them in whose directory no model lives. Every model that the sort has
flagged is one of the deferred updates or counted in a warning that nothing writes them, there is
one warning of the order exactly if base classes decided it, and the duplicates are the models that
come after one of their structure in their unit, if these are collapsed. -/
theorem figures_exact (hd : (models.map Model.qualifiedName).Nodup)
    (hinit : ∀ m ∈ models, "__init__" ∉ m.path) (h : a.assemble models = .ok (stats, output)) :
    ∃ placed, sortModels a.passes (a.prepared models) = .ok placed ∧
      stats.modelsSorted = models.length ∧
      stats.unitsGenerated = output.size ∧ output.size = output.keys.length ∧ output.keys.Nodup ∧
      stats.packageUnits = output.keys.countP (fun key => key.getLast? = some UnitKey.initFile) ∧
      stats.placeholderUnits = output.keys.countP (fun key =>
        key.getLast? = some UnitKey.initFile ∧ key.dropLast ∉ models.map Model.path) ∧
      stats.deferredUpdates + (stats.warnings.map Warning.skipped).sum =
        placed.requireUpdate.length ∧
      stats.warnings.count .fallbackOrdering = (if placed.fallback then 1 else 0) ∧
      stats.duplicatesCollapsed =
        ((ofModels (Entries.values placed.models)).plans.map a.duplicates).sum := by
  obtain ⟨placed, units, hsort, hrun, rfl⟩ := assemble_eq_ok h
  obtain ⟨hsettled, _⟩ := settled_prepared hd hsort
  have hpaths := perm_paths_sorted hd hsort
  have hlength : placed.models.length = models.length := by
    simpa [Entries.values] using hpaths.length_eq
  have hinit' : ∀ m ∈ Entries.values placed.models, "__init__" ∉ m.path := by
    intro m hm
    obtain ⟨m', hm', hpath⟩ := List.mem_map.1 (hpaths.subset (List.mem_map_of_mem hm))
    exact hpath ▸ hinit m' hm'
  have haccounts := hrun.accounts fun plan => nodup_names_of_mem_plans hsettled
  obtain ⟨warnings, hstart, hskipped, hfallback⟩ := Stats.exists_recordSorted
    (detectCycles (a.prepared models)) placed.models.length placed.fallback
  rw [hstart] at haccounts
  obtain ⟨hkeys, hsize⟩ := AssemblyOutput.keys_ofUnits units
  have hunits : units.length = (ofModels (Entries.values placed.models)).length := by
    simpa [Entries.keys] using congrArg List.length hrun.keys_eq
  rw [hkeys, hsize, hrun.keys_eq]
  refine ⟨placed, hsort, haccounts.sorted.trans hlength, ?_, ?_, (laid_ofModels _).nodup_keys,
    ?_, ?_, ?_, haccounts.fallbacks.trans hfallback, ?_⟩
  · rw [haccounts.units, Nat.zero_add, hunits]
  · rw [hunits, Entries.keys, List.length_map]
  · rw [haccounts.directories, Nat.zero_add, countP_isDirectory hinit']
  · rw [haccounts.placeholders, Nat.zero_add, countP_isNone hinit']
    simp only [hpaths.mem_iff]
  · have hupdates := haccounts.updates
    rw [length_deferredNames hsettled (perm_flatMap_plans hinit')] at hupdates
    refine hupdates.trans ?_
    rw [Stats.updates, hskipped, Nat.zero_add]
  · rw [haccounts.duplicates, Nat.zero_add]

/-- A ring of two models of one structure, and a model two levels down. Neither the root nor `x`
has models, and nothing writes the updates of the ring. -/
theorem figures_exact_of_ring :
    let a : Assembler Empty :=
      { options := { reuseModels := true, withImports := false }
        renderer := ⟨Model.name, fun _ => []⟩ }
    let models : List Model :=
      [{ name := "A", path := ["p"], references := .ofList ["p.B"] },
        { name := "B", path := ["p"], references := .ofList ["p.A"] },
        { name := "C", path := ["x", "y"] }]
    (models.map Model.qualifiedName).Nodup ∧ (∀ m ∈ models, "__init__" ∉ m.path) ∧
      ∃ stats output, a.assemble models = .ok (stats, output) ∧
        output.keys = [["__init__.py"], ["x", "__init__.py"], ["x", "y.py"], ["p.py"]] ∧
        stats.modelsSorted = 3 ∧ stats.unitsGenerated = 4 ∧ stats.packageUnits = 2 ∧
        stats.placeholderUnits = 2 ∧
        stats.deferredUpdates + (stats.warnings.map Warning.skipped).sum = 2 ∧
        stats.warnings.count .fallbackOrdering = 1 ∧ stats.duplicatesCollapsed = 1 := by
  intro a models
  have hd : (models.map Model.qualifiedName).Nodup := by decide
  have hinit : ∀ m ∈ models, "__init__" ∉ m.path := by decide
  refine ⟨hd, hinit, ?_⟩
  have hdone : (a.assemble models).toOption.map (fun done => done.2.keys) =
      some [["__init__.py"], ["x", "__init__.py"], ["x", "y.py"], ["p.py"]] := by decide
  have hplaced : (sortModels a.passes (a.prepared models)).toOption.map (fun placed =>
      (placed.requireUpdate.length, placed.fallback,
        ((ofModels (Entries.values placed.models)).plans.map a.duplicates).sum)) =
      some (2, true, 1) := by decide
  cases hrun : a.assemble models with
  | error e => simp [hrun, Except.toOption] at hdone
  | ok done =>
    obtain ⟨stats, output⟩ := done
    obtain ⟨placed, hsort, hsorted, hunits, hsize, _, hdirectories, hplaceholders, hupdates,
      hfallback, hduplicates⟩ := figures_exact hd hinit hrun
    rw [hrun] at hdone
    have hkeys := Option.some.inj hdone
    rw [hsort] at hplaced
    obtain ⟨hflags, hrest⟩ := Prod.mk.inj (Option.some.inj hplaced)
    obtain ⟨hfell, hsum⟩ := Prod.mk.inj hrest
    dsimp only at hkeys hflags hfell hsum
    rw [hkeys] at hsize hdirectories hplaceholders
    have hwarned : stats.warnings.count .fallbackOrdering = 1 := by
      rw [hfallback, hfell]
      rfl
    exact ⟨stats, output, rfl, hkeys, hsorted, hunits.trans hsize, hdirectories, hplaceholders,
      hupdates.trans hflags, hwarned, hduplicates.trans hsum⟩

end Assembler

end Bindery
