import Bindery.Data.Turns
import Bindery.Proofs.Reference.Apart
import Bindery.Proofs.Reference.Following

/-! What the names of a unit lead to.

In a unit that is no package, a type's text begins with the local name of an import, and
following this import from where the unit lies leads to the type's namespace, or to the type
itself (`types_reached`). The text tells the location that it was made for, whatever type it
is looked up for (`Tracks.importFor?_textOf`), so it does not matter that of two types with one
text the later one is remembered. -/
namespace Bindery
open LocalNames

/-! ### One text for one full name -/

/-- What a type with this full name is called. -/
def UnitScope.textFor (scope : UnitScope) (names : LocalNames) (full : String) : String :=
  if '.' ∈ full.toList then
    scope.textOf names (.model (Dotted.split full).1 (Dotted.split full).2)
  else full

theorem UnitScope.textOf_eq_textFor (scope : UnitScope) (names : LocalNames) {t : DataType}
    (hdot : '.' ∉ t.name.toList) : scope.textOf names t = scope.textFor names t.fullName := by
  by_cases hmod : t.isModular
  · obtain ⟨home, _, hne, hfull⟩ := exists_home hmod
    have hmodel : (DataType.model home t.name).isModular := by
      simp [DataType.model, DataType.isModular, hne]
    obtain ⟨home', hhome, _, hmodelFull⟩ := exists_home hmodel
    have hsame : (DataType.model home t.name).fullName = t.fullName := by
      rw [DataType.model, if_neg hne, Option.some.injEq] at hhome
      rw [hmodelFull, hfull, hhome]
      rfl
    have hmem : '.' ∈ t.fullName.toList := by simp [hfull]
    rw [textFor, if_pos hmem, hfull, Dotted.split_append hdot]
    exact textOf_congr scope names hmodel hmod hdot hdot hsame.symm
  · have hfull := fullName_of_not_isModular (by simpa using hmod : t.isModular = false)
    rw [textFor, hfull, if_neg hdot, textOf_of_not_isModular names (by simpa using hmod), hfull]

/-! ### Models of a unit, one at a time -/

theorem UnitNames.resolveAll_append (scope : UnitScope) (s : UnitNames) (before after : List Model) :
    s.resolveAll scope (before ++ after) =
      (((s.resolveAll scope before).1.resolveAll scope after).1,
        (s.resolveAll scope before).2 ++ ((s.resolveAll scope before).1.resolveAll scope after).2) := by
  induction before generalizing s with
  | nil => rfl
  | cons m before ih => simp only [List.cons_append, resolveAll, ih]

namespace UnitPlan

/-- What is known of a model when its types have been renamed, after the models `before`. -/
def renamingOf (plan : UnitPlan) (before : List Model) (m : Model) : Renaming :=
  (m.renameTypes (Renaming.rename plan.plainScope)
    ⟨(plan.resolveIn before).1.localNames, m.references, [], []⟩).1

/-- While a unit is resolved, `i` is what is imported for the name `x`, to which the model `m`
refers after its types have been renamed. -/
def ImportedFor (plan : UnitPlan) (order : List Model) (m : Model) (x : String) (i : Import) :
    Prop :=
  ∃ before after, order = before ++ m :: after ∧ x ∈ (plan.renamingOf before m).references ∧
    (plan.renamingOf before m).importFor? plan.plainScope x = some i

/-- The package that one dot stands for in a unit that is no package itself. -/
def package (plan : UnitPlan) : List String :=
  if plan.kind = .leaf then plan.path.dropLast else plan.path

/-- An import binds what the text `x` of a type begins with. Followed from the package of the
unit it leads to the type's namespace, and the rest of the text is the type's name; or it leads
to the type in its namespace, and there is no rest. -/
def Reaches (plan : UnitPlan) (i : Import) (x : String) (t : DataType) : Prop :=
  i.localName = Text.before "." x ∧
    ∃ source place, i.source = some source ∧ Dotted.follow? plan.package source = some place ∧
      ((place ++ [i.name] = Dotted.segments (t.home.getD "") ∧
          x = i.localName ++ "." ++ t.name) ∨
        (place = Dotted.segments (t.home.getD "") ∧ i.name = t.name ∧ x = i.localName))

variable {plan : UnitPlan} {order before after : List Model} {m : Model}

theorem tracks_renamingOf (horder : order = before ++ m :: after) :
    (plan.renamingOf before m).Tracks plan.plainScope (plan.resolveIn order).1.localNames
      m.references m.allTypes := by
  subst horder
  obtain ⟨runs, _, hrest⟩ := UnitNames.resolveAll_resolves plan.plainScope
    ((plan.resolveIn before).1.resolve plan.plainScope m).1 after
  have hend : (plan.resolveIn (before ++ m :: after)).1 =
      (((plan.resolveIn before).1.resolve plan.plainScope m).1.resolveAll plan.plainScope after).1 := by
    rw [resolveIn, UnitNames.resolveAll_append]
    rfl
  have hnames : (plan.renamingOf before m).localNames.Extends
      (plan.resolveIn (before ++ m :: after)).1.localNames := hend ▸ hrest.extends_names
  have hrenames := m.renameTypes_renames (f := Renaming.rename plan.plainScope)
    ⟨(plan.resolveIn before).1.localNames, m.references, [], []⟩
  have hstart := (Renaming.extends_renames hrenames).trans hnames
  exact (Renaming.renames_tracks rfl hrenames (Renaming.tracks_start hstart) hnames).1

/-- The imports of a unit are what its models bring and what is imported for their references. -/
theorem mem_imports_iff (i : Import) :
    i ∈ (plan.resolveIn order).1.imports ↔
      (∃ m ∈ order, i ∈ m.imports) ∨ ∃ m x, plan.ImportedFor order m x i := by
  induction order using List.reverseRecOn with
  | nil =>
    have hnone : i ∉ (plan.resolveIn []).1.imports := List.not_mem_nil
    simp [hnone, ImportedFor]
  | append_singleton order last ih =>
    have hstep : (plan.resolveIn (order ++ [last])).1 =
        ((plan.resolveIn order).1.resolve plan.plainScope last).1 := by
      rw [resolveIn, UnitNames.resolveAll_append]
      rfl
    have hlast : i ∈ (plan.resolveIn (order ++ [last])).1.imports ↔
        i ∈ (plan.resolveIn order).1.imports ∨ i ∈ last.imports ∨
          ∃ x ∈ (plan.renamingOf order last).references,
            (plan.renamingOf order last).importFor? plan.plainScope x = some i := by
      rw [hstep]
      exact UnitNames.mem_resolve_imports _ last i
    have hfor : ∀ m x, plan.ImportedFor (order ++ [last]) m x i ↔
        plan.ImportedFor order m x i ∨ (m = last ∧ x ∈ (plan.renamingOf order m).references ∧
          (plan.renamingOf order m).importFor? plan.plainScope x = some i) :=
      fun m x => exists_turn_concat_iff
    rw [hlast, ih]
    simp only [hfor, exists_or, List.mem_append, List.mem_singleton, or_and_right]
    simp only [exists_and_left, exists_eq_left]
    exact or_or_or_comm

end UnitPlan

/-! ### Texts and locations -/

/-- The text of a type tells the location that the type was reached at, whichever of the types
with this text is remembered. -/
theorem Renaming.Tracks.importFor?_textOf {scope : UnitScope} {names : LocalNames}
    {reserved : List String} {m : Model} {r : Renaming}
    (h : r.Tracks scope names m.references m.allTypes) (hs : names.Separate reserved)
    (hinit : scope.packageInit = false)
    (hdots : ∀ t ∈ m.allTypes, t.isModular → '.' ∉ t.name.toList) {t : DataType}
    (ht : t ∈ m.allTypes) {k : RelativeImport} (hk : scope.reach? t = some k) {i : Import}
    (hi : r.importFor? scope (scope.textOf names t) = some i) :
    i.source = some k.source ∧ i.name = k.name ∧ i.localName = names.nameAt k := by
  have hdot : ∀ u ∈ m.allTypes, ∀ j, scope.reach? u = some j → '.' ∉ u.name.toList :=
    fun u hu j hj => hdots u hu (UnitScope.reach?_eq_some_iff.1 hj).1
  obtain ⟨_, ⟨full, j, htarget, rfl⟩ | ⟨hnone, _⟩⟩ := importFor?_eq_some_iff.1 hi
  · obtain ⟨u, hu, _, hj, htext⟩ := h.target _ full j htarget
    have hname : names.nameAt j = names.nameAt k := by
      rw [← UnitScope.before_textOf hs (hdot u hu j hj) hj, htext,
        UnitScope.before_textOf hs (hdot t ht k hk) hk]
    have hkey : j.key = k.key :=
      (nameAt_eq_iff hs (h.assigned hu hj) (h.assigned ht hk)).1 hname
    have hsource : sourceOf scope full j = j.source := sourceOf_of_not_packageInit hinit full j
    rw [h.localName_importOf ⟨u, hu, j, hj, rfl⟩, hname]
    refine ⟨?_, congrArg Prod.snd hkey, rfl⟩
    rw [importOf, hsource]
    exact congrArg some (congrArg Prod.fst hkey)
  · exact absurd rfl ((UnitScope.lookup_targets_eq_none_iff h _).1 hnone t ht (by rw [hk]; rfl))

/-! ### Units -/

section Units
variable {order : List Model} {plan : UnitPlan}

/-- A unit that is no package lies in its package as a module, or is the root package. -/
theorem package_eq (hkind : plan.kind = .leaf ∨ (plan.kind = .rootInit ∧ plan.path = [])) :
    plan.package = plan.path.dropLast := by
  rw [UnitPlan.package]
  cases hkind with
  | inl hleaf => rw [if_pos hleaf]
  | inr hroot => simp [hroot]

/-- How such a unit reaches a type is the way from its path to the type's namespace. -/
theorem way_of_reach? (hpath : Dotted.Proper plan.path) {t : DataType} {home : String}
    (hmod : t.isModular) (hhome : t.home = some home) (hdot : '.' ∉ t.name.toList)
    {k : RelativeImport} (hk : plan.plainScope.reach? t = some k) :
    plan.path ≠ Dotted.segments home ∧ k = .way plan.path (Dotted.segments home) t.name := by
  have hsegments : Dotted.segments plan.plainScope.moduleName = plan.path := hpath.segments_join
  rw [reach?_eq plan.plainScope hmod hhome hdot, hsegments] at hk
  split at hk
  · cases hk
  · next hne =>
    refine ⟨fun he => hne (Dotted.segments_inj.1 (hsegments.trans he)), ?_⟩
    exact (Option.some.inj hk).symm

/-- What is imported for the text of a type leads to the type. -/
theorem reaches_of_importedFor
    (hkind : plan.kind = .leaf ∨ (plan.kind = .rootInit ∧ plan.path = []))
    (hpath : Dotted.Proper plan.path)
    (hnames : ∀ m ∈ order, ∀ t ∈ m.allTypes, '.' ∉ t.name.toList) {m : Model} {i : Import}
    {t : DataType} (ht : t ∈ m.allTypes) (helse : plan.Elsewhere t)
    (hhome : ∀ home ∈ t.home, Dotted.Proper (Dotted.segments home))
    (hbelow : plan.kind = .leaf → ¬ plan.path <+: Dotted.segments (t.home.getD ""))
    (hfor : plan.ImportedFor order m
      (plan.plainScope.textOf (plan.resolveIn order).1.localNames t) i) :
    plan.Reaches i (plan.plainScope.textOf (plan.resolveIn order).1.localNames t) t := by
  obtain ⟨before, after, hsplit, _, hi⟩ := hfor
  obtain ⟨_, _, _, hsep, _⟩ := resolveIn_spec plan order
  have hm : m ∈ order := by simp [hsplit]
  have hdot := hnames m hm t ht
  obtain ⟨home, hh, _⟩ := exists_home helse.1
  obtain ⟨k, hk⟩ := (elsewhere_iff fun _ => hdot).1 helse
  have hinit : plan.plainScope.packageInit = false := by
    have hnot : plan.kind ≠ .packageInit := by
      intro he
      rw [he] at hkind
      simp at hkind
    exact decide_eq_false hnot
  obtain ⟨hsource, hname, hlocal⟩ := (UnitPlan.tracks_renamingOf hsplit).importFor?_textOf hsep hinit
    (fun u hu _ => hnames m hm u hu) ht hk hi
  obtain ⟨hne, rfl⟩ := way_of_reach? hpath helse.1 hh hdot hk
  have hlead : plan.path <+: Dotted.segments home → plan.path = [] := by
    intro hpre
    cases hkind with
    | inl hleaf => exact absurd (by simpa [hh] using hpre) (hbelow hleaf)
    | inr hroot => exact hroot.2
  obtain ⟨place, hfollow, hplace⟩ :=
    RelativeImport.follow?_way t.name (hhome home hh) hne hlead
  refine ⟨?_, _, place, hsource, package_eq hkind ▸ hfollow, ?_⟩
  · rw [hlocal, UnitScope.before_textOf hsep hdot hk]
  · rw [hh, Option.getD_some, hname, hlocal, UnitScope.textOf, hk]
    cases hplace with
    | inl hmember =>
      obtain ⟨hmember, hleaf, rfl⟩ := hmember
      exact .inr ⟨rfl, hleaf, by simp [hmember]⟩
    | inr hmodule =>
      obtain ⟨hmember, hplace⟩ := hmodule
      exact .inl ⟨hplace, by simp [hmember]⟩

/-- **What the names of a unit lead to.** In a unit that lies in its package as a module, or is
the root package, types with one full name get one text in all models, in whatever order these
are resolved. An import of the unit is one that a model brings, or it is for a name to which a
model refers in the end; and if this name is the text of a type, the import binds what the text
begins with, to the type's namespace or to the type itself. -/
theorem types_reached (hkind : plan.kind = .leaf ∨ (plan.kind = .rootInit ∧ plan.path = []))
    (hpath : Dotted.Proper plan.path)
    (hnames : ∀ m ∈ plan.models, ∀ t ∈ m.allTypes, '.' ∉ t.name.toList)
    (hhomes : ∀ m ∈ plan.models, ∀ t ∈ m.allTypes, ∀ home ∈ t.home,
      Dotted.Proper (Dotted.segments home))
    (horder : order.Perm plan.models) :
    ∃ text : String → String,
      (plan.resolveIn order).2.map (fun m => m.allTypes.map DataType.name) =
        order.map (fun m => m.allTypes.map fun t => text t.fullName) ∧
      (∀ i, i ∈ (plan.resolveIn order).1.imports ↔
        (∃ m ∈ order, i ∈ m.imports) ∨ ∃ m x, plan.ImportedFor order m x i) ∧
      ∀ m x i, plan.ImportedFor order m x i → ∀ t ∈ m.allTypes, plan.Elsewhere t →
        text t.fullName = x →
        (plan.kind = .leaf → ¬ plan.path <+: Dotted.segments (t.home.getD "")) →
        plan.Reaches i x t := by
  obtain ⟨_, _, _, _, _, htexts⟩ := resolveIn_spec plan order
  have hdots : ∀ m ∈ order, ∀ t ∈ m.allTypes, '.' ∉ t.name.toList :=
    fun m hm => hnames m (horder.mem_iff.1 hm)
  refine ⟨plan.plainScope.textFor (plan.resolveIn order).1.localNames, ?_,
    UnitPlan.mem_imports_iff, ?_⟩
  · refine (map_eq_map_of_forall₂ htexts fun m hm m' htypes => ?_).symm
    refine map_eq_map_of_forall₂ htypes fun t ht t' hname => ?_
    rw [hname.1, UnitScope.textOf_eq_textFor _ _ (hdots m hm t ht)]
  · intro m x i hfor t ht helse hx hbelow
    have hm : m ∈ order := by
      obtain ⟨before, after, hsplit, _⟩ := hfor
      simp [hsplit]
    rw [← UnitScope.textOf_eq_textFor _ _ (hdots m hm t ht)] at hx
    subst hx
    exact reaches_of_importedFor hkind hpath hdots ht helse
      (hhomes m (horder.mem_iff.1 hm) t ht) hbelow hfor

/-- A module that refers to a namespace beside it, to one far from it and to a model of a
package above. -/
theorem types_reached_around :
    let m := Model.referring ["a", "b", "c"] "M" [("a.b.d", "X"), ("z.d", "Y"), ("a", "Z")]
    let plan : UnitPlan := ⟨["a", "b", "c.py"], ["a", "b", "c"], .leaf, [m]⟩
    plan.kind = .leaf ∧ Dotted.Proper plan.path ∧
      (∀ m ∈ plan.models, ∀ t ∈ m.allTypes, '.' ∉ t.name.toList) ∧
      (∀ m ∈ plan.models, ∀ t ∈ m.allTypes, ∀ home ∈ t.home,
        Dotted.Proper (Dotted.segments home)) ∧
      (plan.resolveIn [m]).1.imports.toList.map Import.text =
        ["from . import d", "from .. import Z", "from ...z import d as d2"] ∧
      plan.Reaches ⟨some "...z", "d", some "d2"⟩ "d2.Y" (.model "z.d" "Y") := by
  intro m plan
  have hleaf : plan.kind = .leaf := rfl
  have hpath : Dotted.Proper plan.path := by decide
  have hnames : ∀ m ∈ plan.models, ∀ t ∈ m.allTypes, '.' ∉ t.name.toList := by decide
  have hhomes : ∀ m ∈ plan.models, ∀ t ∈ m.allTypes, ∀ home ∈ t.home,
      Dotted.Proper (Dotted.segments home) := by decide
  have horder : [m].Perm plan.models := .refl _
  refine ⟨hleaf, hpath, hnames, hhomes, by decide +kernel, ?_⟩
  obtain ⟨text, htexts, _, hreaches⟩ := types_reached (.inl hleaf) hpath hnames hhomes horder
  have hresolved : (plan.resolveIn [m]).2.map (fun m => m.allTypes.map DataType.name) =
      [["d.X", "d2.Y", "Z"]] := by decide +kernel
  rw [hresolved, List.map_singleton, Model.allTypes_referring, List.singleton_inj] at htexts
  have htext : text "z.d.Y" = "d2.Y" := by
    simp only [List.map_cons, List.cons.injEq] at htexts
    exact htexts.2.1.symm
  refine hreaches m "d2.Y" ⟨some "...z", "d", some "d2"⟩ ?_ (.model "z.d" "Y") ?_ ?_ htext ?_
  · exact ⟨[], [], rfl, by decide +kernel, by decide +kernel⟩
  · rw [Model.allTypes_referring]
    simp
  · decide
  · decide

end Units
end Bindery
