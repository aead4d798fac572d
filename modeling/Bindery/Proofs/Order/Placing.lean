import Bindery.Data.Turns
import Bindery.Order.Sort

/-! Models are put in order one at a time.

Whatever the passes, the arrangement by base classes and the last pass do, they change a
placement only by putting one more model at its end, flagged or not. `Puts rule p ms p'`
is such a run, with a rule for the flags: the passes put a model only when nothing is
missing and flag it if it refers to itself (`Ready`), the last pass may also flag models
for other reasons (`Safe`). What a run does to the names, and what it keeps
(`Puts.settled`), is said here once; a sort that succeeds is a run over all models
(`puts_of_sortModels`). -/
namespace Bindery.Placement

/-- From `p` the models of a list are put at the end, one after the other, with flags
that the rule allows; on the way base classes may be noted to decide the rest. -/
inductive Puts (rule : Placement → Model → Bool → Prop) :
    Placement → List Model → Placement → Prop where
  | nil {p : Placement} : Puts rule p [] p
  | put {p p' : Placement} {m : Model} {rest : List Model} {update : Bool} :
      rule p m update → Puts rule (p.place m.qualifiedName m update) rest p' →
      Puts rule p (m :: rest) p'
  | fallBack {p p' : Placement} {ms : List Model} :
      Puts rule { p with fallback := true } ms p' → Puts rule p ms p'

/-- A pass puts a model for which nothing is missing. -/
def Ready (p : Placement) (m : Model) (update : Bool) : Prop :=
  p.missing m.qualifiedName m = [] ∧ update = m.refersToItself

/-- Without a flag a model is put only if nothing is missing and it does not refer to itself. -/
def Safe (p : Placement) (m : Model) (update : Bool) : Prop :=
  update = false → p.missing m.qualifiedName m = [] ∧ m.refersToItself = false

theorem Ready.safe {p : Placement} {m : Model} {update : Bool} (h : Ready p m update) :
    Safe p m update := fun hu => ⟨h.1, h.2 ▸ hu⟩

/-! ### One more model -/

section Place
variable {p : Placement} {name : String} {m : Model} {update : Bool}

theorem mem_names_place {r : String} :
    r ∈ (p.place name m update).names ↔ r = name ∨ r ∈ p.names :=
  Entries.mem_keys_put

theorem mem_requireUpdate_place {r : String} :
    r ∈ (p.place name m update).requireUpdate ↔
      r ∈ p.requireUpdate ∨ (update = true ∧ r = name) := by
  cases update <;> simp [place]

theorem models_place (h : name ∉ p.names) (m : Model) (update : Bool) :
    (p.place name m update).models = p.models ++ [(name, m)] :=
  Entries.put_of_not_mem h

theorem names_place (h : name ∉ p.names) (m : Model) (update : Bool) :
    (p.place name m update).names = p.names ++ [name] := by
  simp [names, models_place h, Entries.keys]

/-- What stands at a place after a new model was put at the end is this model, or it stood
there before. -/
theorem models_place_split (h : name ∉ p.names) {before after : Entries String Model}
    {e : String × Model} :
    (p.place name m update).models = before ++ e :: after ↔
      (before = p.models ∧ e = (name, m) ∧ after = []) ∨
        ∃ rest, after = rest ++ [(name, m)] ∧ p.models = before ++ e :: rest := by
  rw [models_place h, concat_eq_append_cons_iff]

theorem nodup_place {ms : List Model} (hd : (p.names ++ (m :: ms).map Model.qualifiedName).Nodup)
    (update : Bool) : m.qualifiedName ∉ p.names ∧
      ((p.place m.qualifiedName m update).names ++ ms.map Model.qualifiedName).Nodup := by
  have hn : m.qualifiedName ∉ p.names := fun hm =>
    (List.nodup_append.1 hd).2.2 _ hm _ (by simp) rfl
  rw [names_place hn]
  exact ⟨hn, by simpa using hd⟩

end Place

/-! ### Runs -/

section Runs
variable {rule : Placement → Model → Bool → Prop} {p p' p'' : Placement} {ms ms' : List Model}

theorem Puts.mono {rule' : Placement → Model → Bool → Prop}
    (hr : ∀ p m update, rule p m update → rule' p m update) (h : Puts rule p ms p') :
    Puts rule' p ms p' := by
  induction h with
  | nil => exact .nil
  | put hm _ ih => exact .put (hr _ _ _ hm) ih
  | fallBack _ ih => exact .fallBack ih

theorem Puts.append (h : Puts rule p ms p') (h' : Puts rule p' ms' p'') :
    Puts rule p (ms ++ ms') p'' := by
  induction h with
  | nil => exact h'
  | put hm _ ih => exact .put hm (ih h')
  | fallBack _ ih => exact .fallBack (ih h')

/-- What a run has placed in the end: what was there, and its models. -/
theorem Puts.mem_names (h : Puts rule p ms p') {r : String} :
    r ∈ p'.names ↔ r ∈ p.names ∨ r ∈ ms.map Model.qualifiedName := by
  induction h with
  | nil => simp
  | put _ _ ih =>
    rw [ih, mem_names_place]
    simp only [List.map_cons, List.mem_cons]
    grind
  | fallBack _ ih => exact ih

end Runs

/-- A reference is missing if it is another name and not placed. -/
theorem mem_missing {p : Placement} {name r : String} {m : Model} :
    r ∈ p.missing name m ↔ r ∈ m.references ∧ r ≠ name ∧ r ∉ p.names := by
  rw [← SortedSet.mem_toList, missing, List.mem_filter, names, ← Entries.has_eq_true]
  simp only [Bool.and_eq_true, decide_eq_true_eq, Bool.not_eq_true', Bool.not_eq_true]

theorem missing_eq_nil {p : Placement} {name : String} {m : Model} :
    p.missing name m = [] ↔ ∀ r ∈ m.references, r = name ∨ r ∈ p.names := by
  rw [List.eq_nil_iff_forall_not_mem]
  simp only [mem_missing]
  grind

/-! ### What a run keeps -/

/-- Every model stands under its own name, which no other has, and its references are
other models in front of it unless it is flagged. -/
structure Settled (p : Placement) : Prop where
  keyed : ∀ e ∈ p.models, e.1 = e.2.qualifiedName
  nodup_names : p.names.Nodup
  nodup_flags : p.requireUpdate.Nodup
  flags_placed : ∀ name ∈ p.requireUpdate, name ∈ p.names
  supplied : ∀ before e after, p.models = before ++ e :: after → ∀ r ∈ e.2.references,
    (r ≠ e.1 ∧ r ∈ Entries.keys before) ∨ e.1 ∈ p.requireUpdate

theorem settled_empty : Settled {} where
  keyed := fun _ he => absurd he List.not_mem_nil
  nodup_names := .nil
  nodup_flags := .nil
  flags_placed := fun _ hn => absurd hn List.not_mem_nil
  supplied := fun before _ _ h => absurd h (by simp)

theorem Settled.place {p : Placement} (hp : Settled p) {m : Model} {update : Bool}
    (hs : Safe p m update) (hn : m.qualifiedName ∉ p.names) :
    Settled (p.place m.qualifiedName m update) := by
  refine ⟨?_, ?_, ?_, ?_, ?_⟩
  · intro e he
    rw [models_place hn, List.mem_append, List.mem_singleton] at he
    rcases he with he | rfl
    · exact hp.keyed e he
    · rfl
  · exact Entries.nodup_keys_put hp.nodup_names
  · cases update with
    | false => exact hp.nodup_flags
    | true =>
      refine List.nodup_append.2 ⟨hp.nodup_flags, by simp, fun a ha b hb => ?_⟩
      rw [List.mem_singleton.1 hb]
      rintro rfl
      exact hn (hp.flags_placed _ ha)
  · intro name h
    rw [mem_names_place]
    rcases mem_requireUpdate_place.1 h with h | ⟨_, rfl⟩
    · exact .inr (hp.flags_placed name h)
    · exact .inl rfl
  · intro before e after h r hr
    rw [mem_requireUpdate_place]
    rcases (models_place_split hn).1 h with ⟨rfl, rfl, rfl⟩ | ⟨rest, rfl, hmodels⟩
    · -- The new model itself: unflagged, all its references were placed.
      cases update with
      | true => exact .inr (.inr ⟨rfl, rfl⟩)
      | false =>
        obtain ⟨hm, hself⟩ := hs rfl
        have hne : r ≠ m.qualifiedName := by
          rintro rfl
          exact absurd hr (by simpa [Model.refersToItself] using hself)
        exact .inl ⟨hne, (missing_eq_nil.1 hm r hr).resolve_left hne⟩
    · exact (hp.supplied before e rest hmodels r hr).imp_right .inl

/-- A run over models with names of their own keeps a placement settled, and puts exactly
these models at its end. -/
theorem Puts.settled {p p' : Placement} {ms : List Model} (h : Puts Safe p ms p')
    (hp : Settled p) (hd : (p.names ++ ms.map Model.qualifiedName).Nodup) :
    Settled p' ∧ p'.models = p.models ++ ms.map fun m => (m.qualifiedName, m) := by
  induction h with
  | nil => exact ⟨hp, by simp⟩
  | @put p p' m rest update hs _ ih =>
    obtain ⟨hn, hd⟩ := nodup_place hd update
    obtain ⟨hp', he⟩ := ih (hp.place hs hn) hd
    exact ⟨hp', by rw [he, models_place hn]; simp⟩
  | fallBack _ ih =>
    exact ih ⟨hp.keyed, hp.nodup_names, hp.nodup_flags, hp.flags_placed, hp.supplied⟩ hd

/-! ### The passes and the last pass are runs -/

/-- A pass puts some of the models and keeps the others. -/
theorem placeReady_puts (p : Placement) (pending : List Model) :
    ∃ done, Puts Ready p done (p.placeReady pending).1 ∧
      (done ++ (p.placeReady pending).2).Perm pending := by
  induction pending generalizing p with
  | nil => exact ⟨[], .nil, .refl _⟩
  | cons m rest ih =>
    simp only [placeReady]
    split
    · next hm =>
      obtain ⟨done, hputs, hperm⟩ := ih (p.place m.qualifiedName m m.refersToItself)
      exact ⟨m :: done, .put ⟨List.isEmpty_iff.1 hm, rfl⟩ hputs, hperm.cons m⟩
    · obtain ⟨done, hputs, hperm⟩ := ih p
      exact ⟨done, hputs, List.perm_middle.trans (hperm.cons m)⟩

theorem passes_zero (p : Placement) (pending : List Model) :
    passes 0 p pending = p.placeReady pending := by
  simp [passes]

theorem passes_succ (budget : Nat) (p : Placement) (pending : List Model) :
    passes (budget + 1) p pending =
      if (p.placeReady pending).2.length = 0 ∨
          (p.placeReady pending).2.length = pending.length then p.placeReady pending
      else passes budget (p.placeReady pending).1 (p.placeReady pending).2 := by
  rw [passes]

theorem passes_puts (budget : Nat) (p : Placement) (pending : List Model) :
    ∃ done, Puts Ready p done (passes budget p pending).1 ∧
      (done ++ (passes budget p pending).2).Perm pending := by
  induction budget generalizing p pending with
  | zero =>
    rw [passes_zero]
    exact placeReady_puts p pending
  | succ budget ih =>
    obtain ⟨done, hputs, hperm⟩ := placeReady_puts p pending
    rw [passes_succ]
    split
    · exact ⟨done, hputs, hperm⟩
    · obtain ⟨more, hputs', hperm'⟩ := ih (p.placeReady pending).1 (p.placeReady pending).2
      refine ⟨done ++ more, hputs.append hputs', ?_⟩
      rw [List.append_assoc]
      exact (hperm'.append_left done).trans hperm

def failure (m : Model) : Unresolved := ⟨m.qualifiedName, m.references⟩

/-- The last pass puts some of the models and says of the others that they fail. -/
theorem placeEach_puts (remaining : List String) (p : Placement) (broken : List String)
    (ordered : List Model) :
    ∃ done failed, Puts Safe p done (placeEach remaining p broken ordered).1 ∧
      (placeEach remaining p broken ordered).2 = failed.map failure ∧
      (done ++ failed).Perm ordered := by
  induction ordered generalizing p broken with
  | nil => exact ⟨[], [], .nil, rfl, .refl _⟩
  | cons m rest ih =>
    simp only [placeEach]
    split
    · next hm =>
      obtain ⟨done, failed, hputs, hfailed, hperm⟩ := ih _ broken
      refine ⟨m :: done, failed, .put (fun hu => ⟨List.isEmpty_iff.1 hm, ?_⟩) hputs, hfailed,
        hperm.cons m⟩
      -- Not to be flagged means that no reference is the model itself.
      rw [List.any_eq_false] at hu
      have hself : m.qualifiedName ∉ m.references := fun hr => by simpa using hu _ hr
      simpa [Model.refersToItself] using hself
    · split
      · obtain ⟨done, failed, hputs, hfailed, hperm⟩ := ih _ (m.qualifiedName :: broken)
        exact ⟨m :: done, failed, .put (fun hu => by cases hu) hputs, hfailed, hperm.cons m⟩
      · obtain ⟨done, failed, hputs, hfailed, hperm⟩ := ih p broken
        exact ⟨done, m :: failed, hputs, by simp [hfailed, failure],
          List.perm_middle.trans (hperm.cons m)⟩

end Bindery.Placement
