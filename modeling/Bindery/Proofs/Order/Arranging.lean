import Mathlib.Data.List.Nodup
import Mathlib.Order.MinMax
import Bindery.Data.Loops
import Bindery.Proofs.Order.Sorting

/-! Arranging by base classes settles unless they form a cycle.

A round cannot move a front part that is in order, below the rest, and behind its own base
classes (`SettledTo`). Without a cycle some model of the rest has no base class in the
rest; the model that a round puts first there has none either, so the front part grows by
one (`SettledTo.round`). No order comes again before the front part is all, there are
enough rounds for that, and a settled order puts each model behind the first of its base
classes (`arrange_settles`). -/
namespace Bindery.BaseClasses
open Relation

/-! ### Positions and ranks -/

theorem position?_eq_some {names : List String} (hd : names.Nodup) {name : String} {i : Nat} :
    position? names name = some i ↔ names[i]? = some name := by
  rw [position?, List.findIdx?_eq_some_iff_getElem, List.getElem?_eq_some_iff]
  constructor
  · rintro ⟨hi, hname, _⟩
    exact ⟨hi, of_decide_eq_true hname⟩
  · rintro ⟨hi, rfl⟩
    refine ⟨hi, decide_eq_true rfl, fun j hj he => ?_⟩
    have hij := (List.Nodup.getElem_inj_iff hd).1 (of_decide_eq_true he)
    omega

theorem position?_eq_none {names : List String} {name : String} :
    position? names name = none ↔ name ∉ names := by
  simp [position?, ← List.forall_mem_ne, eq_comm (a := name)]

theorem lesser_le {r s : Option Nat} {i : Nat} :
    (∃ j, lesser r s = some j ∧ j ≤ i) ↔
      (∃ j, r = some j ∧ j ≤ i) ∨ ∃ j, s = some j ∧ j ≤ i := by
  cases r <;> cases s <;> simp [lesser]

/-- The least of several positions is at most as high as any of them. -/
theorem foldr_lesser_le {positions : List (Option Nat)} {i : Nat} :
    (∃ j, positions.foldr lesser none = some j ∧ j ≤ i) ↔ ∃ j, some j ∈ positions ∧ j ≤ i := by
  induction positions with
  | nil => simp
  | cons r rest ih =>
    rw [List.foldr_cons, lesser_le, ih]
    simp only [List.mem_cons, or_and_right, exists_or, eq_comm (a := r)]

/-- A rank may come before another if it is none, or both are positions in this order. -/
theorem rankLE_iff {r s : Option Nat} :
    rankLE r s = true ↔ ∀ i, r = some i → ∃ j, s = some j ∧ i ≤ j := by
  cases r <;> cases s <;> simp [rankLE]

theorem rankLE_total (r s : Option Nat) : rankLE r s = true ∨ rankLE s r = true := by
  cases r <;> cases s <;> simp [rankLE, Nat.le_total]

theorem rankLE_trans (r s t : Option Nat) (hrs : rankLE r s = true) (hst : rankLE s t = true) :
    rankLE r t = true := by
  rw [rankLE_iff] at *
  intro i hi
  obtain ⟨j, hj, hij⟩ := hrs i hi
  obtain ⟨k, hk, hjk⟩ := hst j hj
  exact ⟨k, hk, hij.trans hjk⟩

/-! ### Waiting base classes -/

section Bases
variable {placed : Placement} {names names' : List String} {m : Model}

/-- The name of the waiting model that a base class of a model is, if there is one. -/
def waitingBase? (placed : Placement) (names : List String) (m : Model) (base : String) :
    Option String :=
  if base ∈ names then some base
  else if m.path = [] ∨ Entries.has base placed.models then none
  else if m.moduleName ++ "." ++ base ∈ names then some (m.moduleName ++ "." ++ base)
  else none

/-- The names of the waiting models that are base classes of a model. -/
def waitingBases (placed : Placement) (names : List String) (m : Model) : List String :=
  m.bases.filterMap (waitingBase? placed names m)

theorem basePosition?_eq (base : String) :
    basePosition? placed names m base =
      (waitingBase? placed names m base).bind (position? names) := by
  rw [basePosition?, waitingBase?]
  split
  · next i hi =>
    have hmem : base ∈ names := by
      by_contra hno
      rw [position?_eq_none.2 hno] at hi
      cases hi
    rw [if_pos hmem, Option.bind_some, hi]
  · next hnone =>
    rw [if_neg (position?_eq_none.1 hnone)]
    split
    · rfl
    · split
      · rfl
      · next hno => rw [position?_eq_none.2 hno, Option.bind_none]

theorem mem_names_of_mem_waitingBases {b : String} (hb : b ∈ waitingBases placed names m) :
    b ∈ names := by
  obtain ⟨base, _, hbase⟩ := List.mem_filterMap.1 hb
  rw [waitingBase?] at hbase
  grind

/-- It does not matter in which order models wait. -/
theorem waitingBases_congr (h : ∀ name, name ∈ names ↔ name ∈ names') :
    waitingBases placed names m = waitingBases placed names' m := by
  have hbase : waitingBase? placed names m = waitingBase? placed names' m := by
    funext base
    simp only [waitingBase?, h]
  rw [waitingBases, hbase, waitingBases]

theorem rank_le (hd : names.Nodup) {i : Nat} :
    (∃ j, rank placed names m = some j ∧ j ≤ i) ↔
      ∃ b ∈ waitingBases placed names m, ∃ j, names[j]? = some b ∧ j ≤ i := by
  rw [rank, foldr_lesser_le]
  simp only [List.mem_map, basePosition?_eq, Option.bind_eq_some_iff, position?_eq_some hd,
    waitingBases, List.mem_filterMap]
  grind

theorem exists_base_of_rank (hd : names.Nodup) {k : Nat} (h : rank placed names m = some k) :
    ∃ b ∈ waitingBases placed names m, names[k]? = some b := by
  obtain ⟨b, hb, j, hj, hjk⟩ := (rank_le hd).1 ⟨k, h, le_refl k⟩
  obtain ⟨k', hk', hkj⟩ := (rank_le hd).2 ⟨b, hb, j, hj, le_refl j⟩
  obtain rfl : k = k' := Option.some.inj (h.symm.trans hk')
  obtain rfl : j = k := Nat.le_antisymm hjk hkj
  exact ⟨b, hb, hj⟩

theorem rank_eq_none (hd : names.Nodup) :
    rank placed names m = none ↔ waitingBases placed names m = [] := by
  constructor
  · intro hnone
    refine List.eq_nil_iff_forall_not_mem.2 fun b hb => ?_
    obtain ⟨j, hj⟩ := List.mem_iff_getElem?.1 (mem_names_of_mem_waitingBases hb)
    obtain ⟨k, hk, _⟩ := (rank_le hd).2 ⟨b, hb, j, hj, le_refl j⟩
    rw [hnone] at hk
    cases hk
  · intro hnone
    refine Option.eq_none_iff_forall_ne_some.2 fun k hk => ?_
    obtain ⟨b, hb, _⟩ := exists_base_of_rank hd hk
    rw [hnone] at hb
    cases hb

end Bases

/-! ### Settled front parts -/

/-- A rank is below a position, if it is any. -/
def Low (j : Nat) (r : Option Nat) : Prop := ∀ k, r = some k → k < j

section Fronts
variable {placed : Placement} {order order' : List Model} {j : Nat}

def rankIn (placed : Placement) (order : List Model) (m : Model) : Option Nat :=
  rank placed (order.map Model.qualifiedName) m

/-- Whether the rank of one model in an order may come before that of another. -/
def before (placed : Placement) (order : List Model) (a b : Model) : Bool :=
  rankLE (rankIn placed order a) (rankIn placed order b)

/-- Two orders of the same models, whose first models are the same. -/
structure Agree (j : Nat) (order order' : List Model) : Prop where
  perm : order.Perm order'
  nodup : (order.map Model.qualifiedName).Nodup
  front : ∀ i < j, order[i]? = order'[i]?

theorem Agree.symm (h : Agree j order order') : Agree j order' order :=
  ⟨h.perm.symm, (h.perm.map _).nodup_iff.1 h.nodup, fun i hi => (h.front i hi).symm⟩

theorem Agree.rank_le (h : Agree j order order') {m : Model} {i : Nat} (hi : i < j)
    (hrank : ∃ k, rankIn placed order m = some k ∧ k ≤ i) :
    ∃ k, rankIn placed order' m = some k ∧ k ≤ i := by
  obtain ⟨b, hb, k, hk, hki⟩ := (BaseClasses.rank_le h.nodup).1 hrank
  refine (BaseClasses.rank_le h.symm.nodup).2 ⟨b, ?_, k, ?_, hki⟩
  · rwa [← waitingBases_congr fun _ => (h.perm.map Model.qualifiedName).mem_iff]
  · rwa [List.getElem?_map, ← h.front k (by omega), ← List.getElem?_map]

/-- A low rank does not change when what is behind moves. -/
theorem Agree.rank_eq (h : Agree j order order') {m : Model} (hlow : Low j (rankIn placed order m)) :
    rankIn placed order' m = rankIn placed order m := by
  cases hr : rankIn placed order m with
  | none =>
    rw [rankIn, rank_eq_none h.nodup] at hr
    rw [rankIn, rank_eq_none h.symm.nodup, ← hr]
    exact waitingBases_congr fun _ => (h.perm.map Model.qualifiedName).mem_iff.symm
  | some k =>
    have hk := hlow k hr
    obtain ⟨k', hk', hle⟩ := h.rank_le hk ⟨k, hr, le_refl k⟩
    obtain ⟨k'', hk'', hle'⟩ := h.symm.rank_le (by omega) ⟨k', hk', le_refl k'⟩
    obtain rfl : k = k'' := Option.some.inj (hr.symm.trans hk'')
    rw [hk', Nat.le_antisymm hle hle']

/-- What comes before with a low rank goes on to do so. -/
theorem Agree.before (h : Agree j order order') {a b : Model}
    (hlow : Low j (rankIn placed order a)) (hle : before placed order a b = true) :
    before placed order' a b = true := by
  rw [BaseClasses.before] at hle ⊢
  rw [h.rank_eq hlow]
  by_cases hb : Low j (rankIn placed order' b)
  · rwa [← h.symm.rank_eq hb]
  · simp only [Low, not_forall, not_lt] at hb
    obtain ⟨k, hk, hjk⟩ := hb
    refine rankLE_iff.2 fun i hi => ⟨k, hk, ?_⟩
    have hij := hlow i hi
    omega

/-- The first models are in order, come before the others, and each is behind the first of
its waiting base classes. -/
structure SettledTo (placed : Placement) (order : List Model) (j : Nat) : Prop where
  le_length : j ≤ order.length
  ordered : ∀ i k a b, i < j → i < k → order[i]? = some a → order[k]? = some b →
    before placed order a b = true
  behind : ∀ i a, i < j → order[i]? = some a → Low i (rankIn placed order a)

theorem settledTo_zero (placed : Placement) (order : List Model) : SettledTo placed order 0 where
  le_length := Nat.zero_le _
  ordered := fun _ _ _ _ h => absurd h (Nat.not_lt_zero _)
  behind := fun _ _ h => absurd h (Nat.not_lt_zero _)

theorem SettledTo.mono (h : SettledTo placed order j) {i : Nat} (hij : i ≤ j) :
    SettledTo placed order i where
  le_length := hij.trans h.le_length
  ordered := fun _ _ _ _ hi => h.ordered _ _ _ _ (by omega)
  behind := fun _ _ hi => h.behind _ _ (by omega)

/-! ### Without a cycle the front part grows -/

/-- One waiting model has another as a base class. -/
def Extends (placed : Placement) (order : List Model) (a b : String) : Prop :=
  ∃ m ∈ order, m.qualifiedName = a ∧ b ∈ waitingBases placed (order.map Model.qualifiedName) m

theorem extends_congr (h : order.Perm order') : Extends placed order = Extends placed order' := by
  funext a b
  have hbases : ∀ m, waitingBases placed (order.map Model.qualifiedName) m =
      waitingBases placed (order'.map Model.qualifiedName) m := fun m =>
    waitingBases_congr fun _ => (h.map Model.qualifiedName).mem_iff
  simp only [Extends, h.mem_iff, hbases]

/-- Some model of a part has no other one of it as a base class. -/
theorem exists_root (hacyclic : ∀ a, ¬ TransGen (Extends placed order) a a) (rest : List Model)
    (hrest : rest ≠ []) :
    ∃ m ∈ rest, ∀ m' ∈ rest, ¬ Extends placed order m.qualifiedName m'.qualifiedName := by
  -- A loop of models would be one of their names.
  have hmodels : ∀ m : Model, ¬ TransGen
      (fun a b => Extends placed order a.qualifiedName b.qualifiedName) m m := fun m hloop =>
    hacyclic m.qualifiedName (hloop.lift Model.qualifiedName fun _ _ h => h)
  obtain ⟨m, hm, hend⟩ := exists_end hmodels hrest
  exact ⟨m, hm, fun m' hm' hstep => hend m' hm' (.single hstep)⟩

/-- So some model behind the front part has its waiting base classes in it. -/
theorem exists_low (hd : (order.map Model.qualifiedName).Nodup)
    (hacyclic : ∀ a, ¬ TransGen (Extends placed order) a a) (hj : j < order.length) :
    ∃ m ∈ order.drop j, Low j (rankIn placed order m) := by
  obtain ⟨m, hm, hroot⟩ := exists_root hacyclic (order.drop j) (by simpa using hj)
  refine ⟨m, hm, fun k hk => ?_⟩
  obtain ⟨b, hb, hpos⟩ := exists_base_of_rank hd hk
  rw [List.getElem?_map, Option.map_eq_some_iff] at hpos
  obtain ⟨m', hm', rfl⟩ := hpos
  by_contra hlate
  have hdrop : m' ∈ order.drop j := by
    refine List.mem_iff_getElem?.2 ⟨k - j, ?_⟩
    rw [List.getElem?_drop, ← hm']
    congr 1
    omega
  exact hroot m' hdrop ⟨m, List.mem_of_mem_drop hm, rfl, hb⟩

theorem round_eq (placed : Placement) (order : List Model) :
    round placed order = stableSort (before placed order) order := by
  rw [round, stableSort_map, List.map_map]
  exact List.map_id _

theorem before_total (placed : Placement) (order : List Model) (a b : Model) :
    before placed order a b = true ∨ before placed order b a = true :=
  rankLE_total _ _

theorem before_trans (placed : Placement) (order : List Model) (a b c : Model)
    (hab : before placed order a b = true) (hbc : before placed order b c = true) :
    before placed order a c = true :=
  rankLE_trans _ _ _ hab hbc

theorem Low.mono {r : Option Nat} {i : Nat} (h : Low i r) (hij : i ≤ j) : Low j r :=
  fun k hk => (h k hk).trans_le hij

/-- What may come before a low rank is low. -/
theorem Low.of_rankLE {r s : Option Nat} (hs : Low j s) (h : rankLE r s = true) : Low j r := by
  intro i hi
  obtain ⟨k, hk, hik⟩ := rankLE_iff.1 h i hi
  exact hik.trans_lt (hs k hk)

/-- A round leaves the front part and puts a model with low rank behind it. -/
theorem SettledTo.round_eq_append (hd : (order.map Model.qualifiedName).Nodup)
    (hacyclic : ∀ a, ¬ TransGen (Extends placed order) a a) (h : SettledTo placed order j)
    (hj : j < order.length) :
    ∃ m rest, BaseClasses.round placed order = order.take j ++ m :: rest ∧
      (m :: rest).Perm (order.drop j) ∧ Low j (rankIn placed order m) ∧
      ∀ b ∈ rest, before placed order m b = true := by
  have hfront : (order.take j).Pairwise (before placed order · ·) := by
    refine List.pairwise_iff_getElem.2 fun i k hi hk hik => ?_
    rw [List.length_take] at hi hk
    rw [List.getElem_take, List.getElem_take]
    exact h.ordered i k _ _ (by omega) hik (List.getElem?_eq_getElem _)
      (List.getElem?_eq_getElem _)
  have hbelow : ∀ a ∈ order.take j, ∀ b ∈ order.drop j, before placed order a b = true := by
    intro a ha b hb
    obtain ⟨i, hi⟩ := List.mem_iff_getElem?.1 ha
    obtain ⟨k, hk⟩ := List.mem_iff_getElem?.1 hb
    rw [List.getElem?_take] at hi
    rw [List.getElem?_drop] at hk
    split at hi
    · exact h.ordered i (j + k) a b ‹_› (by omega) hi hk
    · cases hi
  have hsorted := stableSort_append hfront hbelow
  rw [List.take_append_drop, ← round_eq] at hsorted
  have hperm := perm_stableSort (before placed order) (order.drop j)
  have hpairwise := pairwise_stableSort (before_total placed order) (before_trans placed order)
    (order.drop j)
  cases hrest : stableSort (before placed order) (order.drop j) with
  | nil =>
    rw [hrest, List.nil_perm, List.drop_eq_nil_iff] at hperm
    omega
  | cons m rest =>
    rw [hrest] at hsorted hperm hpairwise
    obtain ⟨hfirst, _⟩ := List.pairwise_cons.1 hpairwise
    obtain ⟨low, hmem, hlow⟩ := exists_low hd hacyclic hj
    refine ⟨m, rest, hsorted, hperm, ?_, hfirst⟩
    rcases List.mem_cons.1 (hperm.mem_iff.2 hmem) with rfl | hmem
    · exact hlow
    · exact hlow.of_rankLE (hfirst low hmem)

/-- **A round settles one more model.** -/
theorem SettledTo.round (hd : (order.map Model.qualifiedName).Nodup)
    (hacyclic : ∀ a, ¬ TransGen (Extends placed order) a a) (h : SettledTo placed order j)
    (hj : j < order.length) : SettledTo placed (round placed order) (j + 1) := by
  obtain ⟨m, rest, hround, hperm, hlow, hfirst⟩ := h.round_eq_append hd hacyclic hj
  have hlength : (order.take j).length = j := by
    rw [List.length_take]
    omega
  have hagree : Agree j order (BaseClasses.round placed order) := by
    refine ⟨(perm_round placed order).symm, hd, fun i hi => ?_⟩
    rw [hround, List.getElem?_append_left (by omega), List.getElem?_take, if_pos hi]
  have hm : (BaseClasses.round placed order)[j]? = some m := by
    rw [hround, List.getElem?_append_right (by omega), hlength]
    simp
  refine ⟨?_, ?_, ?_⟩
  · rw [(perm_round placed order).length_eq]
    exact hj
  · intro i k a b hi hik ha hb
    rcases Nat.lt_succ_iff_lt_or_eq.1 hi with hi | rfl
    · rw [← hagree.front i hi] at ha
      refine hagree.before ((h.behind i a hi ha).mono hi.le) ?_
      by_cases hk : k < j
      · rw [← hagree.front k hk] at hb
        exact h.ordered i k a b hi hik ha hb
      · -- What is behind the front part was behind it before.
        rw [hround, List.getElem?_append_right (by omega)] at hb
        obtain ⟨l, hl⟩ := List.mem_iff_getElem?.1 (hperm.mem_iff.1 (List.mem_of_getElem? hb))
        rw [List.getElem?_drop] at hl
        exact h.ordered i (j + l) a b hi (by omega) ha hl
    · obtain rfl : m = a := Option.some.inj (hm.symm.trans ha)
      refine hagree.before hlow (hfirst b ?_)
      rw [hround, List.getElem?_append_right (by omega), hlength, List.getElem?_cons,
        if_neg (by omega)] at hb
      exact List.mem_of_getElem? hb
  · intro i a hi ha
    rcases Nat.lt_succ_iff_lt_or_eq.1 hi with hi | rfl
    · rw [← hagree.front i hi] at ha
      have hlow := h.behind i a hi ha
      rwa [hagree.rank_eq (hlow.mono hi.le)]
    · obtain rfl : m = a := Option.some.inj (hm.symm.trans ha)
      rwa [hagree.rank_eq hlow]

/-! ### The rounds -/

/-- To compare each rank with the next is to compare all of them. -/
theorem all_zip_iff (ranks : List (Option Nat)) :
    ((ranks.zip (ranks.drop 1)).all fun r => rankLE r.1 r.2) = true ↔
      ranks.Pairwise (rankLE · ·) := by
  induction ranks with
  | nil => simp
  | cons r rest ih =>
    cases rest with
    | nil => simp
    | cons s rest =>
      simp only [List.drop_succ_cons, List.drop_zero, List.zip_cons_cons, List.all_cons,
        Bool.and_eq_true] at ih ⊢
      rw [ih, List.pairwise_cons (a := r)]
      refine and_congr_left fun hrest => ⟨fun hrs t ht => ?_, fun h => h s List.mem_cons_self⟩
      rcases List.mem_cons.1 ht with rfl | ht
      · exact hrs
      · exact rankLE_trans r s t hrs ((List.pairwise_cons.1 hrest).1 t ht)

theorem isSettled_iff :
    isSettled placed order = true ↔ order.Pairwise (before placed order · ·) := by
  rw [BaseClasses.isSettled, all_zip_iff, List.pairwise_map]
  rfl

theorem round_of_isSettled (h : isSettled placed order = true) : round placed order = order := by
  have hall := stableSort_append (isSettled_iff.1 h) fun _ _ b (hb : b ∈ []) =>
    absurd hb List.not_mem_nil
  rwa [List.append_nil, stableSort, List.append_nil, ← round_eq] at hall

theorem SettledTo.isSettled (h : SettledTo placed order order.length) :
    isSettled placed order = true := by
  refine isSettled_iff.2 (List.pairwise_iff_getElem.2 fun i k hi hk hik => ?_)
  exact h.ordered i k _ _ hi hik (List.getElem?_eq_getElem _) (List.getElem?_eq_getElem _)

/-- There is a longest front part that is settled. -/
theorem SettledTo.exists_last (h : SettledTo placed order j) :
    ∃ k, j ≤ k ∧ SettledTo placed order k ∧ ¬ SettledTo placed order (k + 1) := by
  by_contra hnone
  have hall : ∀ n, SettledTo placed order (j + n) := by
    intro n
    induction n with
    | zero => exact h
    | succ n ih =>
      by_contra hnot
      exact hnone ⟨j + n, Nat.le_add_right j n, ih, hnot⟩
  have hlong := (hall (order.length + 1)).le_length
  omega

/-- Orders of the same models that have the same names are the same. -/
theorem eq_of_names_eq (hd : (order.map Model.qualifiedName).Nodup) (hperm : order'.Perm order)
    (hnames : order'.map Model.qualifiedName = order.map Model.qualifiedName) :
    order' = order := by
  refine List.ext_getElem hperm.length_eq fun i hi hi' => ?_
  refine List.inj_on_of_nodup_map hd (hperm.mem_iff.1 (List.getElem_mem hi))
    (List.getElem_mem hi') ?_
  have hname := List.getElem_of_eq hnames (by simpa using hi : i < _)
  rwa [List.getElem_map, List.getElem_map] at hname

/-- **Without a cycle the rounds end because the order is settled**, if there are enough of
them and no order with as long a front part was there before. -/
theorem settle_settles {rounds : Nat} {seen : List (List String)}
    (hd : (order.map Model.qualifiedName).Nodup)
    (hacyclic : ∀ a, ¬ TransGen (Extends placed order) a a) (h : SettledTo placed order j)
    (hseen : ∀ order', order'.Perm order → order'.map Model.qualifiedName ∈ seen →
      ¬ SettledTo placed order' j)
    (hrounds : order.length < rounds + j) :
    (settle placed rounds seen order).2 = .stable ∧
      SettledTo placed (settle placed rounds seen order).1 order.length := by
  induction rounds generalizing order seen j with
  | zero =>
    have hj := h.le_length
    omega
  | succ rounds ih =>
    obtain ⟨k, hjk, hk, hlast⟩ := h.exists_last
    rw [settle]
    split
    · next hmem => exact absurd h (hseen order (.refl _) hmem)
    · split
      · next hsettled =>
        refine ⟨rfl, ?_⟩
        by_contra hnot
        have hlt : k < order.length := by
          refine Nat.lt_of_le_of_ne hk.le_length ?_
          rintro rfl
          exact hnot hk
        have hnext := hk.round hd hacyclic hlt
        rw [round_of_isSettled hsettled] at hnext
        exact hlast hnext
      · next hsettled =>
        have hlt : k < order.length := by
          refine Nat.lt_of_le_of_ne hk.le_length ?_
          rintro rfl
          exact hsettled hk.isSettled
        have hperm := perm_round placed order
        have hd' : ((round placed order).map Model.qualifiedName).Nodup :=
          (hperm.map _).nodup_iff.2 hd
        have hseen' : ∀ order', order'.Perm (round placed order) →
            order'.map Model.qualifiedName ∈ order.map Model.qualifiedName :: seen →
            ¬ SettledTo placed order' (k + 1) := by
          intro order' hperm' hmem hsettled'
          rcases List.mem_cons.1 hmem with hsame | hmem
          · exact hlast (eq_of_names_eq hd (hperm'.trans hperm) hsame ▸ hsettled')
          · exact hseen order' (hperm'.trans hperm) hmem (hsettled'.mono (by omega))
        have hrounds' : (round placed order).length < rounds + (k + 1) := by
          rw [hperm.length_eq]
          omega
        rw [← hperm.length_eq]
        exact ih hd' (extends_congr hperm ▸ hacyclic) (hk.round hd hacyclic hlt) hseen' hrounds'

/-- In a settled order a model that has waiting base classes stands behind one of them. -/
theorem SettledTo.exists_base (hd : (order.map Model.qualifiedName).Nodup)
    (h : SettledTo placed order order.length) {front back : List Model} {m : Model}
    (hsplit : order = front ++ m :: back)
    (hbases : waitingBases placed (order.map Model.qualifiedName) m ≠ []) :
    ∃ b ∈ waitingBases placed (order.map Model.qualifiedName) m,
      b ∈ front.map Model.qualifiedName := by
  obtain ⟨k, hk⟩ := Option.ne_none_iff_exists'.1 (mt (rank_eq_none hd).1 hbases)
  obtain ⟨b, hb, hpos⟩ := exists_base_of_rank hd hk
  have hm : order[front.length]? = some m := by simp [hsplit]
  have hlt : k < front.length :=
    h.behind front.length m (List.getElem?_eq_some_iff.1 hm).1 hm k hk
  refine ⟨b, hb, List.mem_of_getElem? (i := k) ?_⟩
  rw [← hpos, hsplit, List.map_append, List.getElem?_append_left (by simpa using hlt)]

end Fronts

/-- **Arranging settles.** If names differ and no waiting model is led back to itself by
base classes, the rounds end with a stable order, which another round would leave, and in
which each model that has waiting base classes stands behind one of them. -/
theorem arrange_settles {placed : Placement} {models : List Model}
    (hd : (models.map Model.qualifiedName).Nodup)
    (hacyclic : ∀ a, ¬ TransGen (Extends placed models) a a) :
    (arrange placed models).2 = .stable ∧
      SettledTo placed (arrange placed models).1 models.length := by
  refine settle_settles hd hacyclic (settledTo_zero placed models)
    (fun _ _ h => absurd h List.not_mem_nil) ?_
  have hsquare := Nat.le_mul_self models.length
  rw [roundLimit]
  omega

end Bindery.BaseClasses
