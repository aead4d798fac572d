import Bindery.Proofs.Order.Arranging

/-! What arranging by base classes comes to.

A waiting model has another one as a base class if a base class of its is looked up there
(`HasBase`). That is the same whether models or their names are followed (`no_loop_of_names`), so
without a loop the rounds end by themselves, in an order that another round leaves as it is and in
which a model with one waiting base class stands behind it (`arrange_ends`). With two of them that
is so for the one that ranks the model, and need not be for the other. -/
namespace Bindery.BaseClasses
open Relation

/-- One waiting model has another as a base class: it stands where a base class is looked up. -/
def HasBase (placed : Placement) (models : List Model) (m b : Model) : Prop :=
  m ∈ models ∧ ∃ base ∈ m.bases, ∃ i,
    basePosition? placed (models.map Model.qualifiedName) m base = some i ∧ models[i]? = some b

section Waiting
variable {placed : Placement} {models order : List Model} {m b : Model} {name : String}

theorem mem_waitingBases_iff (hd : (models.map Model.qualifiedName).Nodup) (hm : m ∈ models) :
    name ∈ waitingBases placed (models.map Model.qualifiedName) m ↔
      ∃ b, HasBase placed models m b ∧ b.qualifiedName = name := by
  simp only [waitingBases, List.mem_filterMap, HasBase, basePosition?_eq, Option.bind_eq_some_iff,
    position?_eq_some hd, List.getElem?_map, Option.map_eq_some_iff]
  constructor
  · rintro ⟨base, hbase, hwaits⟩
    have hname : name ∈ waitingBases placed (models.map Model.qualifiedName) m :=
      List.mem_filterMap.2 ⟨base, hbase, hwaits⟩
    obtain ⟨b, hb, rfl⟩ := List.mem_map.1 (mem_names_of_mem_waitingBases hname)
    obtain ⟨i, hi⟩ := List.mem_iff_getElem?.1 hb
    exact ⟨b, ⟨hm, base, hbase, i, ⟨_, hwaits, b, hi, rfl⟩, hi⟩, rfl⟩
  · rintro ⟨b, ⟨_, base, hbase, i, ⟨name, hwaits, b', hb', rfl⟩, hb⟩, rfl⟩
    obtain rfl : b' = b := Option.some.inj (hb'.symm.trans hb)
    exact ⟨base, hbase, hwaits⟩

theorem HasBase.mem (h : HasBase placed models m b) : m ∈ models ∧ b ∈ models := by
  obtain ⟨hm, _, _, _, _, hb⟩ := h
  exact ⟨hm, List.mem_of_getElem? hb⟩

theorem mem_of_transGen (h : TransGen (HasBase placed models) m b) : b ∈ models := by
  obtain ⟨_, _, hlast⟩ := TransGen.tail'_iff.1 h
  exact hlast.mem.2

theorem leads_of_names (hd : (models.map Model.qualifiedName).Nodup)
    (h : TransGen (Extends placed models) m.qualifiedName name) (hm : m ∈ models) :
    ∃ b, TransGen (HasBase placed models) m b ∧ b.qualifiedName = name := by
  have hsame : ∀ {c}, c ∈ models → ∀ {c'}, c' ∈ models → c.qualifiedName = c'.qualifiedName →
      c = c' := fun hc _ hc' he => List.inj_on_of_nodup_map hd hc hc' he
  induction h with
  | single hstep =>
    obtain ⟨c, hc, hname, hbase⟩ := hstep
    obtain rfl := hsame hc hm hname
    obtain ⟨b, hb, rfl⟩ := (mem_waitingBases_iff hd hc).1 hbase
    exact ⟨b, .single hb, rfl⟩
  | tail _ hstep ih =>
    obtain ⟨b, hb, rfl⟩ := ih
    obtain ⟨c, hc, hname, hbase⟩ := hstep
    obtain rfl := hsame hc (mem_of_transGen hb) hname
    obtain ⟨b', hb', rfl⟩ := (mem_waitingBases_iff hd hc).1 hbase
    exact ⟨b', hb.tail hb', rfl⟩

theorem no_loop_of_names (hd : (models.map Model.qualifiedName).Nodup)
    (hacyclic : ∀ m, ¬ TransGen (HasBase placed models) m m) (name : String) :
    ¬ TransGen (Extends placed models) name name := by
  intro hloop
  obtain ⟨_, ⟨m, hm, rfl, _⟩, _⟩ := TransGen.head'_iff.1 hloop
  obtain ⟨b, hb, hname⟩ := leads_of_names hd hloop hm
  obtain rfl := List.inj_on_of_nodup_map hd (mem_of_transGen hb) hm hname
  exact hacyclic b hb

/-- A settled order has a model behind a waiting base class, if it has one. -/
theorem exists_base_before (hd : (models.map Model.qualifiedName).Nodup) (hperm : order.Perm models)
    (hsettled : SettledTo placed order order.length) (h : HasBase placed models m b) :
    ∃ b', HasBase placed models m b' ∧ [b', m].Sublist order := by
  have hd' : (order.map Model.qualifiedName).Nodup := (hperm.map _).nodup_iff.2 hd
  obtain ⟨front, back, hsplit⟩ := List.append_of_mem (hperm.mem_iff.2 h.mem.1)
  have hbases : waitingBases placed (order.map Model.qualifiedName) m =
      waitingBases placed (models.map Model.qualifiedName) m :=
    waitingBases_congr fun _ => (hperm.map Model.qualifiedName).mem_iff
  have hsome : waitingBases placed (order.map Model.qualifiedName) m ≠ [] := by
    rw [hbases]
    exact List.ne_nil_of_mem ((mem_waitingBases_iff hd h.mem.1).2 ⟨b, h, rfl⟩)
  obtain ⟨name, hname, hfront⟩ := hsettled.exists_base hd' hsplit hsome
  rw [hbases] at hname
  obtain ⟨b', hb', rfl⟩ := (mem_waitingBases_iff hd h.mem.1).1 hname
  obtain ⟨c, hc, he⟩ := List.mem_map.1 hfront
  have hcmem : c ∈ models := hperm.subset (hsplit ▸ List.mem_append_left _ hc)
  obtain rfl := List.inj_on_of_nodup_map hd hcmem hb'.mem.2 he
  refine ⟨c, hb', ?_⟩
  rw [hsplit]
  exact (List.singleton_sublist.2 hc).append (List.singleton_sublist.2 List.mem_cons_self)

/-- **Without a loop arranging ends by itself.** Whatever has been placed: if all names of the
waiting models differ and no model is led back to itself by waiting base classes, the rounds end
because the order is stable, neither because an order came again nor because there were too many.
The order has the same models, another round leaves it as it is, and a model with exactly one
waiting base class stands behind that one. -/
theorem arrange_ends (placed : Placement) (models : List Model)
    (hd : (models.map Model.qualifiedName).Nodup)
    (hacyclic : ∀ m, ¬ TransGen (HasBase placed models) m m) :
    ∃ order, arrange placed models = (order, .stable) ∧ order.Perm models ∧
      round placed order = order ∧
      ∀ m b, HasBase placed models m b → (∀ b', HasBase placed models m b' → b' = b) →
        [b, m].Sublist order := by
  have hperm := perm_arrange placed models
  obtain ⟨hstable, hsettled⟩ := arrange_settles hd (no_loop_of_names hd hacyclic)
  rw [← hperm.length_eq] at hsettled
  refine ⟨(arrange placed models).1, Prod.ext rfl hstable, hperm,
    round_of_isSettled hsettled.isSettled, fun m b hb hone => ?_⟩
  obtain ⟨b', hb', hbefore⟩ := exists_base_before hd hperm hsettled hb
  exact hone b' hb' ▸ hbefore

theorem no_loop_of_hasBase (measure : Model → Nat)
    (h : ∀ m ∈ models, ∀ base ∈ m.bases, ∀ b ∈ (basePosition? placed
      (models.map Model.qualifiedName) m base).bind (models[·]?), measure b < measure m)
    (m : Model) : ¬ TransGen (HasBase placed models) m m := by
  refine no_loop_of_measure measure ?_ m
  rintro m b ⟨hm, base, hbase, i, hi, hb⟩
  exact h m hm base hbase b (Option.bind_eq_some_iff.2 ⟨i, hi, hb⟩)

end Waiting

/-- A child, written before its parent and its other base class, and the root of both: the first
round puts the root in front, the second one the child at the end. `Base` has been placed. -/
theorem arrange_ends_of_family :
    let placed : Placement := { models := [("Base", { name := "Base" })] }
    let models : List Model :=
      [{ name := "Child", path := ["p"], bases := ["Parent", "Base"] },
        { name := "Parent", path := ["p"], bases := ["p.Root"] },
        { name := "Root", path := ["p"], bases := ["Base"] }]
    (models.map Model.qualifiedName).Nodup ∧
      (∀ m, ¬ TransGen (HasBase placed models) m m) ∧
      ∃ order, arrange placed models = (order, .stable) ∧
        order.map Model.name = ["Root", "Parent", "Child"] ∧ order.Perm models ∧
        round placed order = order ∧
        ∀ m b, HasBase placed models m b → (∀ b', HasBase placed models m b' → b' = b) →
          [b, m].Sublist order := by
  intro placed models
  have hd : (models.map Model.qualifiedName).Nodup := by decide
  have hacyclic : ∀ m, ¬ TransGen (HasBase placed models) m m :=
    no_loop_of_hasBase (fun m => ["Root", "Parent", "Child"].idxOf m.name) (by decide)
  have hnames : (arrange placed models).1.map Model.name = ["Root", "Parent", "Child"] := by
    decide
  obtain ⟨order, harrange, hperm, hround, hbefore⟩ := arrange_ends placed models hd hacyclic
  rw [harrange] at hnames
  exact ⟨hd, hacyclic, order, harrange, hnames, hperm, hround, hbefore⟩

end Bindery.BaseClasses
