import Bindery.Proofs.Order.FallingBack

/-! How far the budget of passes reaches.

A model that waits behind a pass misses another model, and that one was not placed before the
pass: it waited behind the pass before. So every pass that a model has to wait for is one more
reference in a chain that begins at the model (`begins_of_waiting`), however the models came and
however many there are. If references to others form no cycle and no chain of them has more models
than there are passes, the passes place everything, each model behind all others that it refers to,
and flag exactly the models that refer to themselves (`sorts_within_budget`). -/
namespace Bindery
open Relation

/-- One name refers to another one. -/
def RefersOn (models : List Model) (a b : String) : Prop := a ≠ b ∧ Refers models a b

/-- A chain of `n` references, each to another name, begins at a name. -/
def Begins (models : List Model) (n : Nat) (name : String) : Prop :=
  ∃ chain : List String, chain.length = n ∧ (name :: chain).IsChain (RefersOn models)

section Chains
variable {models : List Model} {n : Nat} {a b : String} {chain : List String}

theorem begins_zero (models : List Model) (name : String) : Begins models 0 name :=
  ⟨[], rfl, .singleton name⟩

theorem Begins.cons (hab : RefersOn models a b) (h : Begins models n b) :
    Begins models (n + 1) a := by
  obtain ⟨chain, hlength, hchain⟩ := h
  exact ⟨b :: chain, congrArg (· + 1) hlength, .cons_cons hab hchain⟩

/-- The models of a chain are visited once, if each of its steps leads on. -/
theorem visits_of_isChain (hacyclic : ∀ name, ¬ TransGen (RefersOn models) name name)
    (h : chain.IsChain (RefersOn models)) : chain.Nodup ∧ chain.IsChain (Refers models) :=
  ⟨nodup_of_isChain hacyclic h, h.imp fun _ _ hab => hab.2⟩

/-- A chain that visits each model once leads on in each of its steps. -/
theorem isChain_of_visits (hnodup : chain.Nodup) (h : chain.IsChain (Refers models)) :
    chain.IsChain (RefersOn models) := by
  induction h with
  | nil => exact .nil
  | singleton a => exact .singleton a
  | cons_cons hab _ ih =>
    obtain ⟨hnew, hrest⟩ := List.nodup_cons.1 hnodup
    exact .cons_cons ⟨fun e => hnew (e ▸ List.mem_cons_self), hab⟩ (ih hrest)

end Chains

namespace Placement
variable {models pending : List Model} {p : Placement} {budget n : Nat}

/-! ### What waits behind a pass -/

theorem missing_of_place {name r other : String} {m m' : Model} {update : Bool}
    (h : r ∈ (p.place name m update).missing other m') : r ∈ p.missing other m' := by
  obtain ⟨hr, hother, hlate⟩ := mem_missing.1 h
  exact mem_missing.2 ⟨hr, hother, fun hplaced => hlate (mem_names_place.2 (.inr hplaced))⟩

/-- A model that waits behind a pass missed something that had not been placed before it. -/
theorem exists_missing_of_waiting {m : Model} (h : m ∈ (p.placeReady pending).2) :
    ∃ r, r ∈ p.missing m.qualifiedName m := by
  induction pending generalizing p with
  | nil => cases h
  | cons first rest ih =>
    simp only [placeReady] at h
    split at h
    · obtain ⟨r, hr⟩ := ih h
      exact ⟨r, missing_of_place hr⟩
    · next hwaits =>
      obtain rfl | hrest := List.mem_cons.1 h
      · rw [List.isEmpty_iff] at hwaits
        exact List.exists_mem_of_ne_nil _ hwaits
      · exact ih hrest

/-- All models are placed or wait, and what waits is among them. -/
structure Covers (models : List Model) (p : Placement) (pending : List Model) : Prop where
  waiting : ∀ m ∈ pending, m ∈ models
  all : ∀ m ∈ models, m.qualifiedName ∈ p.names ∨ m.qualifiedName ∈ pending.map Model.qualifiedName

theorem covers_start (models : List Model) : Covers models {} models where
  waiting _ hm := hm
  all _ hm := .inr (List.mem_map_of_mem hm)

/-- A pass only moves models from those that wait to those that are placed. -/
theorem Covers.placeReady (h : Covers models p pending) :
    Covers models (p.placeReady pending).1 (p.placeReady pending).2 := by
  obtain ⟨done, hputs, hperm⟩ := placeReady_puts p pending
  refine ⟨fun m hm => h.waiting m (hperm.subset (List.mem_append_right done hm)), fun m hm => ?_⟩
  rw [hputs.mem_names]
  cases h.all m hm with
  | inl hplaced => exact .inl (.inl hplaced)
  | inr hwaits =>
    rw [← (hperm.map Model.qualifiedName).mem_iff, List.map_append, List.mem_append] at hwaits
    exact hwaits.imp_left .inr

/-- If chains of `n` references begin at all models that wait, chains of one more begin at those
that wait behind the next pass. -/
theorem begins_of_placeReady (hcovers : Covers models p pending)
    (hknown : ∀ m ∈ models, ∀ r ∈ m.references, r ∈ models.map Model.qualifiedName)
    (h : ∀ m ∈ pending, Begins models n m.qualifiedName) :
    ∀ m ∈ (p.placeReady pending).2, Begins models (n + 1) m.qualifiedName := by
  intro m hm
  have hmodel := hcovers.placeReady.waiting m hm
  obtain ⟨r, hmissing⟩ := exists_missing_of_waiting hm
  obtain ⟨hr, hother, hlate⟩ := mem_missing.1 hmissing
  have hname := hknown m hmodel r hr
  obtain ⟨target, htarget, rfl⟩ := List.mem_map.1 hname
  obtain ⟨waiting, hwaiting, hsame⟩ :=
    List.mem_map.1 ((hcovers.all target htarget).resolve_left hlate)
  have hbegins : Begins models n target.qualifiedName := hsame ▸ h waiting hwaiting
  exact hbegins.cons ⟨hother.symm, ⟨m, hmodel, rfl, hr⟩, hname⟩

/-- If a pass places nothing, chains of any length begin at what waits. -/
theorem begins_of_idle (hcovers : Covers models p pending)
    (hknown : ∀ m ∈ models, ∀ r ∈ m.references, r ∈ models.map Model.qualifiedName)
    (hidle : (p.placeReady pending).2.length = pending.length) (n : Nat) :
    ∀ m ∈ pending, Begins models n m.qualifiedName := by
  have hsame : (p.placeReady pending).2 = pending := by rw [(placeReady_idle hidle).1]
  induction n with
  | zero => exact fun m _ => begins_zero models m.qualifiedName
  | succ n ih =>
    have hnext := begins_of_placeReady hcovers hknown ih
    rwa [hsame] at hnext

/-- **Every pass that a model waits for is one more reference in a chain.** -/
theorem begins_of_waiting (hcovers : Covers models p pending)
    (hknown : ∀ m ∈ models, ∀ r ∈ m.references, r ∈ models.map Model.qualifiedName)
    (h : ∀ m ∈ pending, Begins models n m.qualifiedName) :
    ∀ m ∈ (passes budget p pending).2, Begins models (n + budget + 1) m.qualifiedName := by
  -- The induction is on the budget; passes that stop early leave nothing or an idle pass.
  induction budget generalizing p pending n with
  | zero =>
    rw [passes_zero]
    exact begins_of_placeReady hcovers hknown h
  | succ budget ih =>
    rw [passes_succ]
    split
    · next hstop =>
      cases hstop with
      | inl hnone =>
        rw [List.length_eq_zero_iff.1 hnone]
        exact fun _ hm => absurd hm List.not_mem_nil
      | inr hidle =>
        rw [(placeReady_idle hidle).1]
        exact begins_of_idle hcovers hknown hidle _
    · have hnext := ih hcovers.placeReady (begins_of_placeReady hcovers hknown h)
      rwa [Nat.add_right_comm n 1 budget] at hnext

/-- A run of ready models flags those that refer to themselves, in its order. -/
theorem Puts.requireUpdate_eq {p' : Placement} {ms : List Model} (h : Puts Ready p ms p') :
    p'.requireUpdate =
      p.requireUpdate ++ (ms.filter Model.refersToItself).map Model.qualifiedName := by
  induction h with
  | nil => simp
  | @put p p' m rest update hready _ ih =>
    rw [ih, hready.2]
    cases hself : m.refersToItself <;> simp [place, hself]
  | fallBack _ ih => exact ih

end Placement

open Placement

/-- **Models whose chains fit the budget are put in order without base classes.** Let all names
differ, let every reference be the name of a model, let the references to other models form no
cycle, and let no chain of references visit more models than there are passes: one more than may
follow the first one. Then, in whatever order the models came and however many there are, the sort
succeeds and base classes do not decide; all models are in the result, each one behind all others
that it refers to, and flagged are exactly those that refer to themselves, in the order of the
result. -/
theorem sorts_within_budget (budget : Nat) (models : List Model)
    (hd : (models.map Model.qualifiedName).Nodup)
    (hknown : ∀ m ∈ models, ∀ r ∈ m.references, r ∈ models.map Model.qualifiedName)
    (hacyclic : ∀ name, ¬ TransGen (RefersOn models) name name)
    (hchains : ∀ chain : List String, chain.Nodup → chain.IsChain (Refers models) →
      chain.length ≤ budget + 1) :
    ∃ p, sortModels budget models = .ok p ∧ p.fallback = false ∧
      p.models.Perm (models.map fun m => (m.qualifiedName, m)) ∧
      (∀ m ∈ models, ∀ r ∈ m.references, r ≠ m.qualifiedName → p.Precedes r m.qualifiedName) ∧
      p.requireUpdate =
        ((Entries.values p.models).filter Model.refersToItself).map Model.qualifiedName := by
  have hnone : (passes budget {} models).2 = [] := by
    refine List.eq_nil_iff_forall_not_mem.2 fun m hm => ?_
    obtain ⟨chain, hlength, hchain⟩ := begins_of_waiting (covers_start models) hknown
      (fun m _ => begins_zero models m.qualifiedName) m hm
    obtain ⟨hnodup, hrefers⟩ := visits_of_isChain hacyclic hchain
    have hfits := hchains _ hnodup hrefers
    rw [List.length_cons] at hfits
    omega
  obtain ⟨done, hputs, hperm⟩ := passes_puts budget {} models
  rw [hnone, List.append_nil] at hperm
  have h : sortModels budget models = .ok (passes budget {} models).1 := by
    rw [sortModels_eq, if_pos hnone]
  have hmodels : (passes budget {} models).1.models = done.map fun m => (m.qualifiedName, m) :=
    ((hputs.mono fun _ _ _ => Ready.safe).settled settled_empty
      (by simpa [names, Entries.keys] using (hperm.map _).nodup_iff.2 hd)).2
  refine ⟨_, h, fallback_passes budget {} models, (settled_of_sortModels hd h).2, ?_, ?_⟩
  · intro m hm r hr hother
    have hplaced : m.qualifiedName ∈ (passes budget {} models).1.names :=
      hputs.mem_names.2 (.inr (List.mem_map_of_mem (hperm.mem_iff.2 hm)))
    exact precedes_of_placed hd h hm hplaced hr hother
  · have hvalues : Entries.values (passes budget {} models).1.models = done := by
      simp [hmodels, Entries.values, Function.comp_def]
    rw [hvalues, hputs.requireUpdate_eq]
    rfl

/-- Four models, each in front of what it refers to. -/
def shopModels : List Model :=
  [{ name := "Shop", references := ⟨["Cart"], by decide⟩ },
    { name := "Cart", references := ⟨["Item"], by decide⟩ },
    { name := "Log", references := ⟨["Item"], by decide⟩ },
    { name := "Item", references := ⟨["Item"], by decide⟩ }]

/-- Three passes take all of a chain of three models. -/
theorem sorts_within_budget_of_three :
    (shopModels.map Model.qualifiedName).Nodup ∧
      (∀ m ∈ shopModels, ∀ r ∈ m.references, r ∈ shopModels.map Model.qualifiedName) ∧
      (∀ name, ¬ TransGen (RefersOn shopModels) name name) ∧
      (∀ chain : List String, chain.Nodup → chain.IsChain (Refers shopModels) →
        chain.length ≤ 2 + 1) ∧
      ∃ p, sortModels 2 shopModels = .ok p ∧ p.fallback = false ∧
        p.models.Perm (shopModels.map fun m => (m.qualifiedName, m)) ∧
        (∀ m ∈ shopModels, ∀ r ∈ m.references, r ≠ m.qualifiedName →
          p.Precedes r m.qualifiedName) ∧
        p.requireUpdate =
          ((Entries.values p.models).filter Model.refersToItself).map Model.qualifiedName := by
  let height : String → Nat := fun name => min 2 (["Item", "Cart", "Shop"].idxOf name)
  have hd : (shopModels.map Model.qualifiedName).Nodup := by decide
  have hknown : ∀ m ∈ shopModels, ∀ r ∈ m.references,
      r ∈ shopModels.map Model.qualifiedName := by
    decide
  have hless : ∀ a b, RefersOn shopModels a b → height b < height a := by
    rintro _ b ⟨hother, ⟨m, hm, rfl, hr⟩, _⟩
    have hall : ∀ m ∈ shopModels, ∀ r ∈ m.references, m.qualifiedName ≠ r →
        height r < height m.qualifiedName := by decide
    exact hall m hm b hr hother
  have hacyclic := no_loop_of_measure height hless
  have hchains : ∀ chain : List String, chain.Nodup → chain.IsChain (Refers shopModels) →
      chain.length ≤ 2 + 1 := by
    intro chain hnodup hchain
    cases chain with
    | nil => exact Nat.zero_le _
    | cons name rest =>
      have hrest := length_le_of_measure height hless (isChain_of_visits hnodup hchain)
      have hheight : height name ≤ 2 := Nat.min_le_left _ _
      exact Nat.succ_le_succ (hrest.trans hheight)
  exact ⟨hd, hknown, hacyclic, hchains, sorts_within_budget 2 shopModels hd hknown hacyclic hchains⟩

example : ∃ p, sortModels 2 shopModels = .ok p ∧ p.names = ["Item", "Cart", "Log", "Shop"] ∧
    p.requireUpdate = ["Item"] :=
  ⟨_, rfl, by decide, by decide⟩

/-- With one pass less the same chain does not fit. -/
example :
    let models : List Model :=
      [{ name := "Shop", references := ⟨["Cart"], by decide⟩ },
        { name := "Cart", references := ⟨["Item"], by decide⟩ },
        { name := "Item", references := ⟨["Item"], by decide⟩ }]
    ∃ p, sortModels 1 models = .ok p ∧ p.fallback = true :=
  ⟨_, rfl, rfl⟩

end Bindery
