import Mathlib.Data.List.Nodup
import Bindery.Proofs.Order.Cycles
import Bindery.Proofs.Order.Sorting

/-! Which models are flagged.

A model is early if it stands in front of another one that it refers to. The last pass
remembers the early models that it placed, and no pass before it places any, so a model is
flagged exactly if it refers to itself, is early, or refers to an early one
(`mem_requireUpdate_iff`). The first model of a reference cycle is therefore flagged, but
a member further round that refers to neither need not be (`cycles_flagged_iff`). -/
namespace Bindery

namespace Placement
variable {p p' : Placement} {m : Model} {ms : List Model} {update : Bool}

/-- A name is early if its model stands in front of another one that it refers to. -/
def Early (p : Placement) (name : String) : Prop :=
  ∃ before m after, p.models = before ++ (name, m) :: after ∧
    ∃ r ∈ m.references, r ≠ name ∧ r ∉ Entries.keys before

/-- Why a model under some name is flagged. -/
def Due (p : Placement) (name : String) (m : Model) : Prop :=
  name ∈ m.references ∨ p.Early name ∨ ∃ r ∈ m.references, p.Early r

/-- A model is flagged if it refers to itself, something is missing, or it refers to an
early model, and else it is not. -/
def Marked (p : Placement) (m : Model) (update : Bool) : Prop :=
  update = true ↔ m.qualifiedName ∈ m.references ∨ p.missing m.qualifiedName m ≠ [] ∨
    ∃ r ∈ m.references, p.Early r

theorem Marked.safe (h : Marked p m update) : Safe p m update := by
  rintro rfl
  have hnone := mt h.2 Bool.false_ne_true
  rw [not_or, not_or] at hnone
  exact ⟨Decidable.not_not.1 hnone.2.1, by simpa [Model.refersToItself] using hnone.1⟩

/-! ### One more model -/

theorem mem_names_of_early {name : String} (h : p.Early name) : name ∈ p.names := by
  obtain ⟨before, m, after, hsplit, _⟩ := h
  rw [names, hsplit, Entries.keys, List.map_append]
  exact List.mem_append_right _ List.mem_cons_self

/-- A model that is put at the end is early if something is missing; the others are as
early as before. -/
theorem early_place (hn : m.qualifiedName ∉ p.names) {name : String} :
    (p.place m.qualifiedName m update).Early name ↔
      p.Early name ∨ (name = m.qualifiedName ∧ p.missing m.qualifiedName m ≠ []) := by
  constructor
  · rintro ⟨before, m', after, hsplit, r, hr, hself, hlate⟩
    rcases (models_place_split hn).1 hsplit with ⟨rfl, he, rfl⟩ | ⟨rest, rfl, hmodels⟩
    · obtain ⟨rfl, rfl⟩ := Prod.mk.inj he
      exact .inr ⟨rfl, List.ne_nil_of_mem (mem_missing.2 ⟨hr, hself, hlate⟩)⟩
    · exact .inl ⟨before, m', rest, hmodels, r, hr, hself, hlate⟩
  · rintro (⟨before, m', rest, hmodels, hlate⟩ | ⟨rfl, hmissing⟩)
    · exact ⟨before, m', _, (models_place_split hn).2 (.inr ⟨rest, rfl, hmodels⟩), hlate⟩
    · obtain ⟨r, hr⟩ := List.exists_mem_of_ne_nil _ hmissing
      exact ⟨_, m, _, models_place hn m update, r, mem_missing.1 hr⟩

/-- What a placement is to keep: exactly the models that are due are flagged. -/
def Exact (p : Placement) : Prop :=
  ∀ name, name ∈ p.requireUpdate ↔ ∃ m, (name, m) ∈ p.models ∧ p.Due name m

/-- One more model makes no other due: a model that refers to it is early already. -/
theorem due_place (hn : m.qualifiedName ∉ p.names) {name : String} {m' : Model}
    (hm' : (name, m') ∈ p.models) :
    (p.place m.qualifiedName m update).Due name m' ↔ p.Due name m' := by
  have hname : name ∈ p.names := List.mem_map_of_mem hm'
  have hne : name ≠ m.qualifiedName := fun e => hn (e ▸ hname)
  have hearly : m.qualifiedName ∈ m'.references → p.Early name := by
    intro hr
    obtain ⟨before, after, hsplit⟩ := List.append_of_mem hm'
    refine ⟨before, m', after, hsplit, _, hr, hne.symm, fun hb => hn ?_⟩
    rw [names, hsplit, Entries.keys, List.map_append]
    exact List.mem_append_left _ hb
  simp only [Due, early_place hn]
  grind

/-- The new model is due for the reasons of the rule. -/
theorem due_place_self (hn : m.qualifiedName ∉ p.names) :
    (p.place m.qualifiedName m update).Due m.qualifiedName m ↔
      m.qualifiedName ∈ m.references ∨ p.missing m.qualifiedName m ≠ [] ∨
        ∃ r ∈ m.references, p.Early r := by
  have hlate : ¬ p.Early m.qualifiedName := fun h => hn (mem_names_of_early h)
  simp only [Due, early_place hn]
  grind

/-- One more model, flagged by the rule. -/
theorem Exact.place (hp : p.Exact) (hm : Marked p m update) (hn : m.qualifiedName ∉ p.names) :
    (p.place m.qualifiedName m update).Exact := by
  intro name
  rw [mem_requireUpdate_place, hp name, models_place hn m update]
  simp only [List.mem_append, List.mem_singleton, Prod.mk.injEq]
  constructor
  · rintro (⟨m', hm', hdue⟩ | ⟨hu, rfl⟩)
    · exact ⟨m', .inl hm', (due_place hn hm').2 hdue⟩
    · exact ⟨m, .inr ⟨rfl, rfl⟩, (due_place_self hn).2 (hm.1 hu)⟩
  · rintro ⟨m', hm' | ⟨rfl, rfl⟩, hdue⟩
    · exact .inl ⟨m', hm', (due_place hn hm').1 hdue⟩
    · exact .inr ⟨hm.2 ((due_place_self hn).1 hdue), rfl⟩

/-! ### Runs by the rule -/

theorem Puts.exact (h : Puts Marked p ms p') (hp : p.Exact)
    (hd : (p.names ++ ms.map Model.qualifiedName).Nodup) : p'.Exact := by
  induction h with
  | nil => exact hp
  | put hm _ ih =>
    obtain ⟨hn, hd⟩ := nodup_place hd _
    exact ih (hp.place hm hn) hd
  | fallBack _ ih => exact ih hp hd

/-- A pass follows the rule: it places no early model. -/
theorem Puts.marked_of_ready (h : Puts Ready p ms p') (hp : ∀ name, ¬ p.Early name)
    (hd : (p.names ++ ms.map Model.qualifiedName).Nodup) :
    Puts Marked p ms p' ∧ ∀ name, ¬ p'.Early name := by
  induction h with
  | nil => exact ⟨.nil, hp⟩
  | @put p p' m rest update hready _ ih =>
    obtain ⟨hn, hd⟩ := nodup_place hd update
    obtain ⟨hnone, rfl⟩ := hready
    have hmarked : Marked p m m.refersToItself := by
      simp [Marked, Model.refersToItself, hnone, hp]
    have hlate : ∀ name, ¬ (p.place m.qualifiedName m m.refersToItself).Early name := by
      simp [early_place hn, hp, hnone]
    obtain ⟨hputs, hp'⟩ := ih hlate hd
    exact ⟨.put hmarked hputs, hp'⟩
  | fallBack _ ih =>
    obtain ⟨hputs, hp'⟩ := ih hp hd
    exact ⟨.fallBack hputs, hp'⟩

/-- The last pass, if it does not fail, puts its models in their order and by the rule: the
names that it remembers are those of the early models. -/
theorem placeEach_marked {remaining broken : List String} {ordered : List Model}
    (hbroken : ∀ r, r ∈ broken ↔ p.Early r)
    (hd : (p.names ++ ordered.map Model.qualifiedName).Nodup)
    (hok : (placeEach remaining p broken ordered).2 = []) :
    Puts Marked p ordered (placeEach remaining p broken ordered).1 := by
  induction ordered generalizing p broken with
  | nil => exact .nil
  | cons m rest ih =>
    simp only [placeEach] at hok ⊢
    split
    · next hnone =>
      rw [if_pos hnone] at hok
      rw [List.isEmpty_iff] at hnone
      obtain ⟨hn, hd⟩ := nodup_place hd _
      refine .put ?_ (ih (fun r => ?_) hd hok)
      · simp only [Marked, hnone, hbroken, List.any_eq_true, SortedSet.mem_toList,
          Bool.or_eq_true, decide_eq_true_eq]
        grind
      · rw [early_place hn, hbroken]
        simp [hnone]
    · next hsome =>
      rw [if_neg hsome] at hok
      rw [List.isEmpty_iff] at hsome
      split
      · next hall =>
        rw [if_pos hall] at hok
        obtain ⟨hn, hd⟩ := nodup_place hd true
        refine .put ?_ (ih (fun r => ?_) hd hok)
        · simp [Marked, hsome]
        · rw [early_place hn, List.mem_cons, hbroken]
          simp [hsome, or_comm]
      · next hall =>
        rw [if_neg hall] at hok
        cases hok

theorem not_early_empty (name : String) : ¬ Early {} name := by
  rintro ⟨before, m, after, hsplit, _⟩
  simp at hsplit

theorem exact_empty : Exact {} := fun _ => by simp

end Placement

open Placement Relation

/-! ### The runs of a sort -/

section Sorted
variable {budget : Nat} {models : List Model} {p : Placement}

/-- The passes are a run of ready models, each with a name of its own, and what they leave are the
other models. -/
theorem exists_ready (budget : Nat) (hd : (models.map Model.qualifiedName).Nodup) :
    ∃ ready, Puts Ready {} ready (passes budget {} models).1 ∧
      (ready.map Model.qualifiedName).Nodup ∧
      (passes budget {} models).1.models = (ready.map fun m => (m.qualifiedName, m)) ∧
      (ready ++ leftover budget models).Perm models := by
  obtain ⟨ready, hready, hperm⟩ := passes_puts budget {} models
  have hall : (ready ++ leftover budget models).Perm models :=
    ((perm_leftover budget models).append_left ready).trans hperm
  have hnames : ((ready ++ leftover budget models).map Model.qualifiedName).Nodup :=
    (hall.map _).nodup_iff.2 hd
  rw [List.map_append] at hnames
  have hfirst : (ready.map Model.qualifiedName).Nodup := (List.nodup_append.1 hnames).1
  obtain ⟨_, hplaced⟩ := (hready.mono fun _ _ _ => Ready.safe).settled settled_empty hfirst
  exact ⟨ready, hready, hfirst, hplaced, hall⟩

/-- The passes are a run by the rule, they place no early model, and what they leave are the
other models. -/
theorem marked_of_passes (budget : Nat) (hd : (models.map Model.qualifiedName).Nodup) :
    ∃ ready, Puts Marked {} ready (passes budget {} models).1 ∧
      (∀ name, ¬ (passes budget {} models).1.Early name) ∧
      (passes budget {} models).1.models = (ready.map fun m => (m.qualifiedName, m)) ∧
      (ready ++ leftover budget models).Perm models := by
  obtain ⟨ready, hready, hfirst, hplaced, hall⟩ := exists_ready budget hd
  obtain ⟨hputs, hearly⟩ := hready.marked_of_ready not_early_empty hfirst
  exact ⟨ready, hputs, hearly, hplaced, hall⟩

theorem nodup_leftover (budget : Nat) (hd : (models.map Model.qualifiedName).Nodup) :
    ((passes budget {} models).1.names ++
      (leftover budget models).map Model.qualifiedName).Nodup := by
  obtain ⟨ready, _, _, hready, hall⟩ := marked_of_passes budget hd
  have hnames := (hall.map Model.qualifiedName).nodup_iff.2 hd
  rw [names, hready]
  simpa [Entries.keys, Function.comp_def] using hnames

/-- A sort that succeeds goes on by the rule, with what the passes left in the order that the
base classes gave it. -/
theorem marked_of_sortModels (hd : (models.map Model.qualifiedName).Nodup)
    (h : sortModels budget models = .ok p) :
    Puts Marked (passes budget {} models).1 (leftover budget models) p := by
  obtain ⟨_, _, hearly, _, _⟩ := marked_of_passes budget hd
  rw [sortModels_eq] at h
  split at h
  · next hnone =>
    cases h
    have hempty : leftover budget models = [] := by
      rw [← List.perm_nil, ← hnone]
      exact perm_leftover budget models
    rw [hempty]
    exact .nil
  · split at h
    · next hok =>
      cases h
      exact .fallBack (placeEach_marked (fun r => iff_of_false List.not_mem_nil (hearly r))
        (nodup_leftover budget hd) hok)
    · cases h

/-- Under a model's name stands this model. -/
theorem mem_models_iff (hd : (models.map Model.qualifiedName).Nodup)
    (h : sortModels budget models = .ok p) {m m' : Model} (hm : m ∈ models) :
    (m.qualifiedName, m') ∈ p.models ↔ m' = m := by
  rw [(settled_of_sortModels hd h).2.mem_iff, List.mem_map]
  constructor
  · rintro ⟨m'', hm'', he⟩
    obtain ⟨hname, rfl⟩ := Prod.mk.inj he
    exact List.inj_on_of_nodup_map hd hm'' hm hname
  · rintro rfl
    exact ⟨m', hm, rfl⟩

/-- **A model is flagged exactly if it refers to itself, is early, or refers to an early
model.** -/
theorem mem_requireUpdate_iff (hd : (models.map Model.qualifiedName).Nodup)
    (h : sortModels budget models = .ok p) {m : Model} (hm : m ∈ models) :
    m.qualifiedName ∈ p.requireUpdate ↔ p.Due m.qualifiedName m := by
  obtain ⟨ready, hfirst, _, _, hall⟩ := marked_of_passes budget hd
  have hexact : p.Exact :=
    (hfirst.append (marked_of_sortModels hd h)).exact exact_empty ((hall.map _).nodup_iff.2 hd)
  rw [hexact m.qualifiedName]
  simp only [mem_models_iff hd h hm, exists_eq_left]

/-! ### Cycles -/

/-- The first model of a reported cycle is flagged: a reference of it is itself or comes later. -/
theorem exists_flag_of_cycle (hd : (models.map Model.qualifiedName).Nodup)
    (h : sortModels budget models = .ok p) {cycle : List String}
    (hc : cycle ∈ detectCycles models) : ∃ name ∈ cycle, name ∈ p.requireUpdate := by
  obtain ⟨a, ha⟩ := exists_mem_of_cycle hc
  have hplaced : (p.models.find? (·.1 ∈ cycle)).isSome := by
    obtain ⟨m, hm, rfl⟩ := List.mem_map.1 (mem_of_leads (exists_cycle_iff.1 ⟨cycle, hc, ha⟩))
    exact List.find?_isSome.2 ⟨_, (mem_models_iff hd h hm).2 rfl, decide_eq_true ha⟩
  obtain ⟨⟨name, m⟩, he⟩ := Option.isSome_iff_exists.1 hplaced
  obtain ⟨hin, before, after, hsplit, hfirst⟩ := List.find?_eq_some_iff_append.1 he
  have hname : name ∈ cycle := of_decide_eq_true hin
  refine ⟨name, hname, ?_⟩
  -- The model refers to a member of the cycle, and none of them is in front of it.
  obtain ⟨b, hnext, hback⟩ := TransGen.head'_iff.1 (exists_cycle_iff.1 ⟨cycle, hc, hname⟩)
  have hb : b ∈ cycle := (mem_cycle_iff hc hname).2
    ⟨.single hnext, .trans_right hback (exists_cycle_iff.1 ⟨cycle, hc, hname⟩)⟩
  obtain ⟨⟨m', hm', rfl, hr⟩, _⟩ := hnext
  obtain rfl : m = m' := (mem_models_iff hd h hm').1 (hsplit ▸ by simp)
  obtain ⟨_, hbefore⟩ | hflag := (settled_of_sortModels hd h).1.supplied _ _ _ hsplit b hr
  · obtain ⟨e, hmem, rfl⟩ := List.mem_map.1 hbefore
    exact absurd (decide_eq_true hb) (by simpa using hfirst e hmem)
  · exact hflag

/-- **Not every member of a cycle is flagged.** If all names differ and the sort succeeds,
some member of each reported cycle is flagged. All members of all reported cycles are
flagged if and only if every model that leads back to itself refers to itself, or stands
in front of a model that it refers to, or refers to a model that does. -/
theorem cycles_flagged_iff (budget : Nat) (models : List Model) (p : Placement)
    (hd : (models.map Model.qualifiedName).Nodup) (h : sortModels budget models = .ok p) :
    (∀ cycle ∈ detectCycles models, ∃ name ∈ cycle, name ∈ p.requireUpdate) ∧
    ((∀ cycle ∈ detectCycles models, ∀ name ∈ cycle, name ∈ p.requireUpdate) ↔
      ∀ m ∈ models, TransGen (Refers models) m.qualifiedName m.qualifiedName →
        m.qualifiedName ∈ m.references ∨ p.Early m.qualifiedName ∨
          ∃ r ∈ m.references, p.Early r) := by
  refine ⟨fun cycle hc => exists_flag_of_cycle hd h hc, ?_, ?_⟩
  · intro hall m hm hloop
    obtain ⟨cycle, hc, hname⟩ := exists_cycle_iff.2 hloop
    exact (mem_requireUpdate_iff hd h hm).1 (hall cycle hc _ hname)
  · intro hdue cycle hc name hname
    have hloop := exists_cycle_iff.1 ⟨cycle, hc, hname⟩
    obtain ⟨m, hm, rfl⟩ := List.mem_map.1 (mem_of_leads hloop)
    exact (mem_requireUpdate_iff hd h hm).2 (hdue m hm hloop)

/-- Three models in a ring, in the order of their references: the last one finds the first
in front of it, which is early, so all of them are flagged. -/
theorem cycles_flagged_iff_in_order :
    let models : List Model :=
      [{ name := "A", references := ⟨["B"], by decide⟩ },
        { name := "B", references := ⟨["C"], by decide⟩ },
        { name := "C", references := ⟨["A"], by decide⟩ }]
    (models.map Model.qualifiedName).Nodup ∧ ∃ p, sortModels defaultPasses models = .ok p ∧
      p.requireUpdate = ["A", "B", "C"] ∧
      (∀ cycle ∈ detectCycles models, ∃ name ∈ cycle, name ∈ p.requireUpdate) ∧
      ((∀ cycle ∈ detectCycles models, ∀ name ∈ cycle, name ∈ p.requireUpdate) ↔
        ∀ m ∈ models, TransGen (Refers models) m.qualifiedName m.qualifiedName →
          m.qualifiedName ∈ m.references ∨ p.Early m.qualifiedName ∨
            ∃ r ∈ m.references, p.Early r) :=
  ⟨by decide, _, rfl, by decide, cycles_flagged_iff defaultPasses _ _ (by decide) rfl⟩

/-- The same ring with the last two models the other way round: `B` comes last, and the
model that it refers to is flagged without being early itself. -/
theorem cycles_not_flagged_out_of_order :
    let models : List Model :=
      [{ name := "A", references := ⟨["B"], by decide⟩ },
        { name := "C", references := ⟨["A"], by decide⟩ },
        { name := "B", references := ⟨["C"], by decide⟩ }]
    (models.map Model.qualifiedName).Nodup ∧ ∃ p, sortModels defaultPasses models = .ok p ∧
      ¬ ∀ cycle ∈ detectCycles models, ∀ name ∈ cycle, name ∈ p.requireUpdate :=
  ⟨by decide, _, rfl, by decide⟩

end Sorted

end Bindery
