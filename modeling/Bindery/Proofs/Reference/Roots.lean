import Bindery.Proofs.Reference.Known

/-! Bare names of models of the root namespace.

A reference without a dot is the qualified name of a model of the root namespace. A type
that is spelled so keeps its text, and the unit imports the root's model under it, unless
something in the unit has taken the name: a model of its own, for then the reference is
held to be that model's (`roots_not_meant_by_own`), a type that is imported from a package
above under this name, or a namespace of the root with the same name that the model imports
under another one. What a bare name means is therefore the root's model exactly when none
of these is so, or the import comes from elsewhere in the unit (`roots_meant_iff`). -/
namespace Bindery
open LocalNames

/-! ### The root package, seen from a unit -/

namespace Dotted

theorem split_of_not_mem {name : String} (h : '.' ∉ name.toList) : split name = ("", name) := by
  rw [split, Text.splitLast?_of_not_mem h, Option.getD_none]

end Dotted

/-- A model of the root namespace is imported from as many packages up as there are segments. -/
theorem relative?_of_not_mem (current : String) {name : String} (h : '.' ∉ name.toList) :
    relative? current name =
      if current = "" then none
      else some ⟨Text.replicate (Dotted.segments current).length ".", name, true⟩ := by
  have hroot : Dotted.segments "" = [] := rfl
  have hempty : Dotted.segments current = [] ↔ current = "" := by
    rw [← hroot, Dotted.segments_inj]
  have hway : RelativeImport.way (Dotted.segments current) [] name =
      ⟨Text.replicate (max (Dotted.segments current).length 1) ".", name, true⟩ := by
    cases hs : Dotted.segments current <;> rfl
  rw [relative?_eq, Dotted.split_of_not_mem h, hroot, hway]
  by_cases hc : current = ""
  · rw [if_pos (hempty.2 hc), if_pos hc]
  · have hlength : (Dotted.segments current).length ≠ 0 := fun h0 =>
      hc (hempty.1 (List.length_eq_zero_iff.1 h0))
    rw [if_neg (mt hempty.1 hc), if_neg hc, Nat.max_eq_left (by omega)]

/-- What the root package is called in the imports of a unit. -/
def UnitPlan.rootSource (plan : UnitPlan) : String :=
  Text.replicate (plan.path.length + if plan.kind = .packageInit then 1 else 0) "."

section Plan
variable {plan : UnitPlan} {root : String}

theorem segments_moduleName (hpath : ∀ s ∈ plan.path, '.' ∉ s.toList) (hne : plan.path ≠ [])
    (hname : plan.moduleName ≠ "") : Dotted.segments plan.moduleName = plan.path := by
  rw [Dotted.segments, if_neg hname]
  exact Dotted.pieces_join hne hpath

theorem relative?_root (hpath : ∀ s ∈ plan.path, '.' ∉ s.toList) (hne : plan.path ≠ [])
    (hname : plan.moduleName ≠ "") (hroot : '.' ∉ root.toList) :
    relative? plan.moduleName root =
      some ⟨Text.replicate plan.path.length ".", root, true⟩ := by
  rw [relative?_of_not_mem _ hroot, if_neg hname, segments_moduleName hpath hne hname]

theorem relativeFromPackage?_root (hpath : ∀ s ∈ plan.path, '.' ∉ s.toList)
    (hne : plan.path ≠ []) (hname : plan.moduleName ≠ "") (hroot : '.' ∉ root.toList) :
    relativeFromPackage? plan.moduleName root =
      some ⟨Text.replicate (plan.path.length + 1) ".", root, true⟩ := by
  have hinside : plan.moduleName ++ "." ++ initSegment ≠ "" := by simp
  have hpieces : Text.pieces '.' (plan.moduleName ++ "." ++ initSegment) =
      Text.pieces '.' plan.moduleName ++ Text.pieces '.' initSegment :=
    Text.pieces_append '.' plan.moduleName initSegment
  have hsegments : Dotted.segments (plan.moduleName ++ "." ++ initSegment) =
      plan.path ++ [initSegment] := by
    rw [Dotted.segments, if_neg hinside, hpieces, ← segments_moduleName hpath hne hname,
      Dotted.segments, if_neg hname]
    rfl
  rw [relativeFromPackage?, relative?_root hpath hne hname hroot, if_neg hname,
    relative?_of_not_mem _ hroot, if_neg hinside, hsegments, List.length_append]
  rfl

theorem sourceOf_root (index : ReferenceIndex) (source : Option String)
    (hpath : ∀ s ∈ plan.path, '.' ∉ s.toList) (hne : plan.path ≠ [])
    (hname : plan.moduleName ≠ "") (hroot : '.' ∉ root.toList) :
    Renaming.sourceOf (.ofPlan plan index source) root
      ⟨Text.replicate plan.path.length ".", root, true⟩ = plan.rootSource := by
  have hinside : relativeFromPackage? (UnitScope.ofPlan plan index source).moduleName root = _ :=
    relativeFromPackage?_root hpath hne hname hroot
  rw [Renaming.sourceOf, UnitPlan.rootSource, hinside]
  by_cases hkind : plan.kind = .packageInit
  · rw [if_pos hkind, if_pos (by exact decide_eq_true hkind)]
    rfl
  · rw [if_neg hkind, if_neg (by simpa [UnitScope.ofPlan] using hkind)]
    rfl

end Plan

/-! ### What a bare name means -/

/-- A type of a model is the bare name of a model of the root namespace, which is among the
model's references. -/
structure NamesRoot (models : List Model) (m : Model) (t : DataType) : Prop where
  container : t.container = none
  bare : t.isModular = false
  referred : t.name ∈ m.references
  exists_root : ∃ root ∈ models, root.path = [] ∧ root.name = t.name

/-- A type that a unit imports as a model, from a package above its namespace. -/
def UnitScope.FromAbove (scope : UnitScope) (t : DataType) : Prop :=
  scope.madeHere t = false ∧ ∃ i ∈ scope.reach? t, i.member = true

instance (scope : UnitScope) : DecidablePred scope.FromAbove := fun t =>
  inferInstanceAs (Decidable (scope.madeHere t = false ∧ ∃ i ∈ scope.reach? t, i.member = true))

/-- A model imports a namespace from the root package under another name than the
namespace's. A root's model of this name would be imported from the same place. -/
def UnitPlan.Displaces (plan : UnitPlan) (scope : UnitScope) (names : LocalNames) (m : Model)
    (root : String) : Prop :=
  ∃ u ∈ m.allTypes, scope.madeHere u = false ∧ ∃ i ∈ scope.reach? u,
    i.key = (Text.replicate plan.path.length ".", root) ∧ names.nameAt i ≠ root

instance (plan : UnitPlan) (scope : UnitScope) (names : LocalNames) (m : Model) (root : String) :
    Decidable (plan.Displaces scope names m root) :=
  inferInstanceAs (Decidable (∃ u ∈ m.allTypes, scope.madeHere u = false ∧ ∃ i ∈ scope.reach? u,
    i.key = (Text.replicate plan.path.length ".", root) ∧ names.nameAt i ≠ root))

/-- The models of a unit, resolved in some order. -/
def UnitPlan.resolveWith (plan : UnitPlan) (index : ReferenceIndex) (source : Option String)
    (order : List Model) : UnitNames × List Model :=
  (UnitNames.ofPlan plan).resolveAll (.ofPlan plan index source) order

/-- Some import binds a text to a model of the root namespace. -/
def UnitPlan.ImportsRoot (plan : UnitPlan) (imports : Imports) (root text : String) : Prop :=
  ∃ i ∈ imports, i.source = some plan.rootSource ∧ i.name = root ∧ i.localName = text

/-- In a resolved unit a text means a model of the root namespace: an import binds it to this
model, it is not the name of a model of the unit, and no type that is imported from a package
above is called so. -/
structure UnitPlan.MeansRoot (plan : UnitPlan) (index : ReferenceIndex) (source : Option String)
    (order : List Model) (root text : String) : Prop where
  imported : plan.ImportsRoot (plan.resolveWith index source order).1.imports root text
  not_own : ∀ own ∈ plan.models, own.name ≠ text
  not_above : ∀ p ∈ order.zip (plan.resolveWith index source order).2,
    ∀ q ∈ p.1.allTypes.zip p.2.allTypes,
      (UnitScope.ofPlan plan index source).FromAbove q.1 → q.2.name ≠ text

section Units
variable {models order : List Model} {plan : UnitPlan} {index : ReferenceIndex}
  {source : Option String}

/-- What is known of such a unit in the end. -/
theorem resolveWith_spec (plan : UnitPlan) (index : ReferenceIndex) (source : Option String)
    (order : List Model) :
    ∃ runs : List (Model × Renaming), runs.map Prod.fst = order ∧
      (∀ i, i ∈ (plan.resolveWith index source order).1.imports ↔ ∃ run ∈ runs,
        i ∈ run.1.imports ∨ ∃ x ∈ run.2.references,
          run.2.importFor? (.ofPlan plan index source) x = some i) ∧
      (∀ run ∈ runs, (∃ references, Renaming.Tracks (UnitScope.ofPlan plan index source).forgetful
          (plan.resolveWith index source order).1.localNames run.1.references
          ((UnitScope.ofPlan plan index source).foreign run.1.allTypes)
          { run.2 with references }) ∧
        ∀ name ∈ run.1.references, (∀ t ∈ run.1.allTypes, t.isModular → t.fullName ≠ name) →
          name ∈ run.2.references) ∧
      List.Forall₂ (fun m m' => List.Forall₂ (fun t t' =>
        t'.name = (UnitScope.ofPlan plan index source).nameIn
            (plan.resolveWith index source order).1.localNames t ∧
          t'.home = t.home ∧ t'.container = t.container) m.allTypes m'.allTypes)
        order (plan.resolveWith index source order).2 := by
  obtain ⟨runs, rfl, h⟩ :=
    UnitNames.resolveAll_resolves (.ofPlan plan index source) (UnitNames.ofPlan plan) order
  obtain ⟨hknown, htexts⟩ := h.known (.refl _)
  refine ⟨runs, rfl, fun i => (h.mem_imports i).trans (or_iff_right ?_), hknown, htexts⟩
  exact List.not_mem_nil

/-- What is called without a dot is called by a local name alone. -/
theorem member_of_textOf {scope : UnitScope} {names : LocalNames} {t : DataType}
    {i : RelativeImport} (hi : scope.reach? t = some i)
    (hdot : '.' ∉ (scope.textOf names t).toList) : i.member = true := by
  by_contra hmember
  refine hdot ?_
  simp [UnitScope.textOf, hi, hmember]

/-- A root's model is imported under its name if nothing stands in the way. -/
theorem importsRoot_of_free (hpath : ∀ s ∈ plan.path, '.' ∉ s.toList) (hne : plan.path ≠ [])
    (hname : plan.moduleName ≠ "") (hhome : ∀ own ∈ plan.models, own.path = plan.path) {m : Model}
    (hm : m ∈ order) {root : String} (hroot : '.' ∉ root.toList) (hr : root ∈ m.references)
    (hown : ∀ own ∈ plan.models, own.name ≠ root)
    (habove : ∀ u ∈ m.allTypes, (UnitScope.ofPlan plan index source).FromAbove u →
      (UnitScope.ofPlan plan index source).nameIn
        (plan.resolveWith index source order).1.localNames u ≠ root)
    (hplace : ¬ plan.Displaces (.ofPlan plan index source)
      (plan.resolveWith index source order).1.localNames m root) :
    plan.ImportsRoot (plan.resolveWith index source order).1.imports root root := by
  obtain ⟨runs, rfl, himports, hknown, _⟩ := resolveWith_spec plan index source order
  obtain ⟨run, hrun, rfl⟩ := List.mem_map.1 hm
  obtain ⟨⟨references, htracks⟩, hkept⟩ := hknown run hrun
  have hnotOwn : root ∉ (UnitScope.ofPlan plan index source).ownNames := by
    intro hmem
    obtain ⟨own, hmine, hnames⟩ := List.mem_flatMap.1 hmem
    rcases List.mem_pair.1 hnames with rfl | rfl
    · exact hown own hmine rfl
    · rw [qualifiedName_of_path_ne_nil (hhome own hmine ▸ hne)] at hroot
      exact hroot (by simp)
  have htarget : run.2.targets.lookup root = none := by
    refine Option.eq_none_iff_forall_ne_some.2 fun ⟨full, i⟩ hi => ?_
    obtain ⟨u, hu, _, hreach, htext⟩ := htracks.target root full i hi
    obtain ⟨hu, hmade⟩ := UnitScope.mem_foreign.1 hu
    refine habove u hu ⟨hmade, i, hreach, member_of_textOf hreach (htext ▸ hroot)⟩ ?_
    rw [UnitScope.nameIn, if_neg (by simp [hmade])]
    exact htext
  have hway := relative?_root hpath hne hname hroot
  refine ⟨run.2.importOf (.ofPlan plan index source) root _, (himports _).2
    ⟨run, hrun, .inr ⟨root, hkept root hr fun _ _ => Renaming.fullName_ne_of_not_mem hroot,
      Renaming.importFor?_eq_some_iff.2 ⟨hnotOwn, .inr ⟨htarget, _, hway, rfl⟩⟩⟩⟩,
    congrArg some (sourceOf_root index source hpath hne hname hroot), rfl, ?_⟩
  rw [Import.localName, Renaming.importOf]
  cases hchosen : run.2.chosen.lookup (Text.replicate plan.path.length ".", root) with
  | none => simp [RelativeImport.key, hchosen]
  | some given =>
    -- The model asked for this place, and got the name for it.
    obtain ⟨u, hu, i, hreach, hkey⟩ :=
      (htracks.asked (Text.replicate plan.path.length ".", root)).1 (by simp [hchosen])
    obtain ⟨hu, hmade⟩ := UnitScope.mem_foreign.1 hu
    have hlookup := htracks.chosen _ _ hchosen
    have hsame : (plan.resolveWith index source (runs.map Prod.fst)).1.localNames.nameAt i = root := by
      by_contra hother
      exact hplace ⟨u, hu, hmade, i, hreach, hkey, hother⟩
    rw [nameAt, hkey, hlookup] at hsame
    simpa [RelativeImport.key, hchosen] using hsame

/-- Whatever stands in the first of two lists of one length has a partner. -/
theorem exists_mem_zip {α β : Type} {as : List α} {bs : List β} (h : as.length = bs.length) {a : α}
    (ha : a ∈ as) : ∃ b, (a, b) ∈ as.zip bs := by
  obtain ⟨i, hi, rfl⟩ := List.mem_iff_getElem.1 ha
  have hzip : i < (as.zip bs).length := by
    rw [List.length_zip]
    omega
  refine ⟨bs[i], List.mem_iff_getElem.2 ⟨i, hzip, List.getElem_zip⟩⟩

theorem exists_resolved (plan : UnitPlan) (index : ReferenceIndex) (source : Option String)
    {m : Model} (hm : m ∈ order) {t : DataType} (ht : t ∈ m.allTypes) :
    ∃ m' t', (m, m') ∈ order.zip (plan.resolveWith index source order).2 ∧
      (t, t') ∈ m.allTypes.zip m'.allTypes := by
  obtain ⟨_, _, _, _, htexts⟩ := resolveWith_spec plan index source order
  obtain ⟨hlength, htypes⟩ := List.forall₂_iff_zip.1 htexts
  obtain ⟨m', hm'⟩ := exists_mem_zip hlength hm
  obtain ⟨t', ht'⟩ := exists_mem_zip (htypes hm').length_eq ht
  exact ⟨m', t', hm', ht'⟩

theorem resolved_name {p : Model × Model}
    (hp : p ∈ order.zip (plan.resolveWith index source order).2) {q : DataType × DataType}
    (hq : q ∈ p.1.allTypes.zip p.2.allTypes) :
    q.2.name = (UnitScope.ofPlan plan index source).nameIn
      (plan.resolveWith index source order).1.localNames q.1 ∧ q.2.container = q.1.container := by
  obtain ⟨_, _, _, _, htexts⟩ := resolveWith_spec plan index source order
  obtain ⟨hname, _, hcontainer⟩ :=
    (List.forall₂_iff_zip.1 ((List.forall₂_iff_zip.1 htexts).2 hp)).2 hq
  exact ⟨hname, hcontainer⟩

theorem hint_of_container {t : DataType} (h : t.container = none) : t.hint = t.name := by
  obtain ⟨name, home, origin, container, parameters⟩ := t
  obtain rfl : container = none := h
  rw [DataType.hint]

theorem nameIn_of_not_isModular (scope : UnitScope) (names : LocalNames) {t : DataType}
    (h : t.isModular = false) : scope.nameIn names t = t.name := by
  rw [UnitScope.nameIn, UnitScope.textOf_of_not_isModular names h,
    UnitScope.fullName_of_not_isModular h, ite_self]

/-- **When a bare name means the root's model.** In a unit below the root, whatever its index
and single source and in whatever order its models are resolved, every type that is the bare
name of a root's model to which its model refers means this model after the resolution, if and
only if for each of them: no model of the unit has this name, no type that is imported from a
package above gets it, and, if the model imports a namespace of the root that has the name
under another one, or the unit's only segment is empty, some import of the unit binds it to
the root's model all the same. -/
theorem roots_meant_iff (hd : (models.map Model.qualifiedName).Nodup) (hdots : DotFree models)
    (hplan : PlannedIn models plan) (hne : plan.path ≠ []) (horder : order.Perm plan.models)
    (index : ReferenceIndex) (source : Option String) :
    (∀ p ∈ order.zip (plan.resolveWith index source order).2,
        ∀ q ∈ p.1.allTypes.zip p.2.allTypes, NamesRoot models p.1 q.1 →
        plan.MeansRoot index source order q.1.name q.2.hint) ↔
      ∀ m ∈ plan.models, ∀ t ∈ m.allTypes, NamesRoot models m t →
        (∀ own ∈ plan.models, own.name ≠ t.name) ∧
        (∀ m' ∈ plan.models, ∀ u ∈ m'.allTypes, (UnitScope.ofPlan plan index source).FromAbove u →
          (UnitScope.ofPlan plan index source).nameIn
            (plan.resolveWith index source order).1.localNames u ≠ t.name) ∧
        (plan.moduleName = "" ∨ plan.Displaces (.ofPlan plan index source)
            (plan.resolveWith index source order).1.localNames m t.name →
          plan.ImportsRoot (plan.resolveWith index source order).1.imports t.name t.name) := by
  have hsub : ∀ m ∈ plan.models, m ∈ models ∧ m.path = plan.path :=
    fun m hm => (hplan.mem_models hd).1 hm
  -- The text of such a type is its name, before and after.
  have hhint : ∀ p ∈ order.zip (plan.resolveWith index source order).2,
      ∀ q ∈ p.1.allTypes.zip p.2.allTypes, NamesRoot models p.1 q.1 → q.2.hint = q.1.name := by
    intro p hp q hq hnames
    obtain ⟨hname, hcontainer⟩ := resolved_name hp hq
    rw [hint_of_container (hcontainer.trans hnames.container), hname,
      nameIn_of_not_isModular _ _ hnames.bare]
  have habove : ∀ name, (∀ p ∈ order.zip (plan.resolveWith index source order).2,
      ∀ q ∈ p.1.allTypes.zip p.2.allTypes, (UnitScope.ofPlan plan index source).FromAbove q.1 →
        q.2.name ≠ name) ↔
      ∀ m ∈ plan.models, ∀ u ∈ m.allTypes, (UnitScope.ofPlan plan index source).FromAbove u →
        (UnitScope.ofPlan plan index source).nameIn
          (plan.resolveWith index source order).1.localNames u ≠ name := by
    intro name
    constructor
    · intro h m hm u hu hfrom
      obtain ⟨m', u', hp, hq⟩ := exists_resolved plan index source (horder.mem_iff.2 hm) hu
      exact (resolved_name hp hq).1 ▸ h _ hp _ hq hfrom
    · intro h p hp q hq hfrom
      rw [(resolved_name hp hq).1]
      exact h p.1 (horder.mem_iff.1 (List.of_mem_zip hp).1) q.1 (List.of_mem_zip hq).1 hfrom
  constructor
  · intro h m hm t ht hnames
    obtain ⟨m', t', hp, hq⟩ := exists_resolved plan index source (horder.mem_iff.2 hm) ht
    have hmeans := h _ hp _ hq hnames
    rw [hhint _ hp _ hq hnames] at hmeans
    exact ⟨hmeans.not_own, (habove _).1 hmeans.not_above, fun _ => hmeans.imported⟩
  · intro h p hp q hq hnames
    have hm := List.of_mem_zip hp
    have hmine := horder.mem_iff.1 hm.1
    obtain ⟨hown, hfrom, himport⟩ := h p.1 hmine q.1 (List.of_mem_zip hq).1 hnames
    rw [hhint p hp q hq hnames]
    refine ⟨?_, hown, (habove _).2 hfrom⟩
    by_cases hway : plan.moduleName = "" ∨ plan.Displaces (.ofPlan plan index source)
        (plan.resolveWith index source order).1.localNames p.1 q.1.name
    · exact himport hway
    · rw [not_or] at hway
      obtain ⟨hmodel, hpath⟩ := hsub p.1 hmine
      obtain ⟨root, hroot, _, hrootName⟩ := hnames.exists_root
      exact importsRoot_of_free (hpath ▸ hdots.path p.1 hmodel) hne hway.1
        (fun own hmem => (hsub own hmem).2) hm.1 (hrootName ▸ hdots.name root hroot)
        hnames.referred hown (hfrom p.1 hmine) hway.2

end Units

/-- A model of `a.b` that names the root's `R` and imports `X` of the package above it: nothing
has taken the name, and `R` is the root's. -/
theorem roots_meant_below_package :
    let m : Model :=
      { name := "M", path := ["a", "b"], references := .ofList ["R", "a.X"],
        fields := [{ name := "r", type := .model "" "R" }, { name := "x", type := .model "a" "X" }] }
    let models : List Model := [m, { name := "R" }, { name := "X", path := ["a"] }]
    let plan : UnitPlan := ⟨["a", "b.py"], ["a", "b"], .leaf, [m]⟩
    (models.map Model.qualifiedName).Nodup ∧ DotFree models ∧ PlannedIn models plan ∧
      (plan.resolveWith [] none plan.models).1.imports.toList.map Import.text =
        ["from . import X", "from .. import R"] ∧
      ∀ p ∈ plan.models.zip (plan.resolveWith [] none plan.models).2,
        ∀ q ∈ p.1.allTypes.zip p.2.allTypes, NamesRoot models p.1 q.1 →
        plan.MeansRoot [] none plan.models q.1.name q.2.hint := by
  intro m models plan
  have hd : (models.map Model.qualifiedName).Nodup := by decide
  have hdots : DotFree models := ⟨by decide, by decide, by decide⟩
  have hplan : PlannedIn models plan := plannedIn_of_sorted 1
    [{ name := "R" }, { name := "X", path := ["a"] }, m] plan.key rfl rfl
  refine ⟨hd, hdots, hplan, by decide, ?_⟩
  refine (roots_meant_iff hd hdots hplan (by decide) (.refl _) [] none).2 fun m' hm' t _ hnames => ?_
  obtain rfl := List.mem_singleton.1 hm'
  have hroots : ∀ root ∈ models, root.path = [] → root.name = "R" := by decide
  obtain ⟨root, hroot, hpath, hname⟩ := hnames.exists_root
  rw [← hname, hroots root hroot hpath]
  refine ⟨by decide, by decide, fun hway => ?_⟩
  exact absurd hway (by decide)

/-- In the unit `a`, which has an `R` of its own, the root's `R` is not imported, and the type
that names it is called as the unit's own. -/
theorem roots_not_meant_by_own :
    let m : Model :=
      { name := "M", path := ["a"], references := .ofList ["R"],
        fields := [{ name := "f", type := .model "" "R" }] }
    let own : Model := { name := "R", path := ["a"] }
    let models : List Model := [{ name := "R" }, own, m]
    let plan : UnitPlan := ⟨["a.py"], ["a"], .leaf, [own, m]⟩
    (models.map Model.qualifiedName).Nodup ∧ DotFree models ∧ PlannedIn models plan ∧
      (plan.resolveWith [] none plan.models).1.imports.toList = [] ∧
      ¬ ∀ p ∈ plan.models.zip (plan.resolveWith [] none plan.models).2,
        ∀ q ∈ p.1.allTypes.zip p.2.allTypes, NamesRoot models p.1 q.1 →
        plan.MeansRoot [] none plan.models q.1.name q.2.hint := by
  intro m own models plan
  have hnone : (plan.resolveWith [] none plan.models).1.imports.toList = [] := by decide
  refine ⟨by decide, ⟨by decide, by decide, by decide⟩,
    plannedIn_of_sorted 1 models plan.key rfl rfl, hnone, fun h => ?_⟩
  have hnames : NamesRoot models m (.model "" "R") :=
    ⟨rfl, rfl, by decide, ⟨_, List.mem_cons_self, rfl, rfl⟩⟩
  have hm : m ∈ plan.models := List.mem_cons_of_mem _ List.mem_cons_self
  have ht : DataType.model "" "R" ∈ m.allTypes := List.mem_cons_self
  obtain ⟨m', t', hp, hq⟩ := exists_resolved plan [] none hm ht
  obtain ⟨i, hi, _⟩ := (h _ hp _ hq hnames).imported
  rw [← SortedSet.mem_toList, hnone] at hi
  cases hi

end Bindery
