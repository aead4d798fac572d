import Bindery.Data.Loops
import Bindery.Proofs.Order.Arranging
import Bindery.Proofs.Order.Flags

/-! Base classes come first, as far as one rank can see to it.

The passes place a model only behind all that it refers to, its base classes among them.
The models that they leave are arranged by the first of their waiting base classes, which
settles if base classes form no cycle; so each of them stands behind one of its waiting
base classes, and behind all of them if there is only one (`bases_first`). With two that
wait the other one may come later (`bases_not_first_of_two`). -/
namespace Bindery
open Relation Placement

/-! ### What a base class stands for -/

/-- The qualified name that a base class of a model stands for. It is written so, or, unless
some model has what is written as its qualified name, relative to the model's namespace. -/
def baseName (models : List Model) (m : Model) (base : String) : String :=
  if m.path = [] ∨ base ∈ models.map Model.qualifiedName then base
  else m.moduleName ++ "." ++ base

def baseNames (models : List Model) (m : Model) : List String :=
  m.bases.map (baseName models m)

/-- One name has another as a base class. -/
def Inherits (models : List Model) (a b : String) : Prop :=
  ∃ m ∈ models, m.qualifiedName = a ∧ b ∈ baseNames models m

/-- One name stands in front of another. -/
def Placement.Precedes (p : Placement) (a b : String) : Prop :=
  p.names.idxOf a < p.names.idxOf b

instance (p : Placement) (a b : String) : Decidable (p.Precedes a b) :=
  inferInstanceAs (Decidable (_ < _))

theorem precedes_of_split {p : Placement} (hp : p.names.Nodup) {before after : Entries String Model}
    {name a : String} {m : Model} (hsplit : p.models = before ++ (name, m) :: after)
    (ha : a ∈ Entries.keys before) : p.Precedes a name := by
  have hnames : p.names = Entries.keys before ++ name :: Entries.keys after := by
    rw [names, hsplit, Entries.keys, List.map_append]
    rfl
  rw [hnames] at hp
  have hname : name ∉ Entries.keys before := fun hmem =>
    (List.nodup_append.1 hp).2.2 _ hmem _ List.mem_cons_self rfl
  rw [Precedes, hnames, List.idxOf_append_of_mem ha, List.idxOf_append_of_notMem hname]
  exact Nat.lt_add_right _ (List.idxOf_lt_length_iff.2 ha)

/-- If all models are placed or wait, the waiting base classes of a model are its base
classes that wait. -/
theorem BaseClasses.mem_waitingBases {models : List Model} {placed : Placement}
    {waiting : List String} {m : Model} {b : String}
    (hall : ∀ r, r ∈ models.map Model.qualifiedName ↔ r ∈ placed.names ∨ r ∈ waiting) :
    b ∈ waitingBases placed waiting m ↔ b ∈ baseNames models m ∧ b ∈ waiting := by
  have hbase : ∀ base, waitingBase? placed waiting m base = some b ↔
      baseName models m base = b ∧ b ∈ waiting := by
    intro base
    have hplaced : Entries.has base placed.models = true ↔ base ∈ placed.names :=
      Entries.has_eq_true
    simp only [waitingBase?, baseName, hall, hplaced]
    grind
  simp only [waitingBases, baseNames, List.mem_filterMap, List.mem_map, hbase]
  grind

/-! ### A sort and its base classes -/

section Sorted
variable {budget : Nat} {models : List Model} {p : Placement}

/-- The names in order are those that the passes placed and then those that they left, as
these were arranged. -/
theorem models_of_sortModels (hd : (models.map Model.qualifiedName).Nodup)
    (h : sortModels budget models = .ok p) :
    p.models = (passes budget {} models).1.models ++
      (leftover budget models).map fun m => (m.qualifiedName, m) := by
  obtain ⟨ready, hfirst, _, _, hall⟩ := marked_of_passes budget hd
  have hnames := (hall.map Model.qualifiedName).nodup_iff.2 hd
  rw [List.map_append] at hnames
  obtain ⟨hsettled, _⟩ := (hfirst.mono fun _ _ _ => Marked.safe).settled settled_empty
    (List.nodup_append.1 hnames).1
  exact (((marked_of_sortModels hd h).mono fun _ _ _ => Marked.safe).settled hsettled
    (nodup_leftover budget hd)).2

/-- A model either was placed by the passes or stands somewhere among those that they left. -/
theorem placed_or_left (budget : Nat) (hd : (models.map Model.qualifiedName).Nodup) {m : Model}
    (hm : m ∈ models) : m.qualifiedName ∈ (passes budget {} models).1.names ∨
      ∃ front back, leftover budget models = front ++ m :: back := by
  refine ((mem_names_iff budget models _).1 (List.mem_map_of_mem hm)).imp_right fun hleft => ?_
  obtain ⟨ready, _, _, _, hall⟩ := marked_of_passes budget hd
  obtain ⟨m', hm', hname⟩ := List.mem_map.1 hleft
  have hmem := hall.subset (List.mem_append_right ready hm')
  exact List.append_of_mem (List.inj_on_of_nodup_map hd hmem hm hname ▸ hm')

/-- The models that the passes placed stand behind all others that they refer to. -/
theorem precedes_of_placed (hd : (models.map Model.qualifiedName).Nodup)
    (h : sortModels budget models = .ok p) {m : Model} (hm : m ∈ models)
    (hplaced : m.qualifiedName ∈ (passes budget {} models).1.names) {r : String}
    (hr : r ∈ m.references) (hne : r ≠ m.qualifiedName) : p.Precedes r m.qualifiedName := by
  obtain ⟨_, _, hearly, _, _⟩ := marked_of_passes budget hd
  have hmodels := models_of_sortModels hd h
  have hmem : (m.qualifiedName, m) ∈ (passes budget {} models).1.models := by
    obtain ⟨⟨name, m'⟩, hm', rfl⟩ := List.mem_map.1 hplaced
    have hp : (m.qualifiedName, m') ∈ p.models := hmodels ▸ List.mem_append_left _ hm'
    rwa [(mem_models_iff hd h hm).1 hp] at hm'
  obtain ⟨before, after, hsplit⟩ := List.append_of_mem hmem
  have hbefore : r ∈ Entries.keys before := by
    by_contra hlate
    exact hearly m.qualifiedName ⟨before, m, after, hsplit, r, hr, hne, hlate⟩
  rw [hsplit, List.append_assoc] at hmodels
  exact precedes_of_split (settled_of_sortModels hd h).1.nodup_names hmodels hbefore

/-- What the last pass placed stands behind what the passes placed. -/
theorem precedes_of_waiting (hd : (models.map Model.qualifiedName).Nodup)
    (h : sortModels budget models = .ok p) {m : Model} {front back : List Model}
    (hm : leftover budget models = front ++ m :: back) {a : String}
    (ha : a ∈ (passes budget {} models).1.names ∨ a ∈ front.map Model.qualifiedName) :
    p.Precedes a m.qualifiedName := by
  have hmodels := models_of_sortModels hd h
  rw [hm, List.map_append, List.map_cons, ← List.append_assoc] at hmodels
  refine precedes_of_split (settled_of_sortModels hd h).1.nodup_names hmodels ?_
  rw [Entries.keys, List.map_append, List.mem_append]
  refine ha.imp_right fun ha => ?_
  rwa [List.map_map]

/-- If base classes form no cycle, what waits is arranged until it is settled. -/
theorem settledTo_leftover (hd : (models.map Model.qualifiedName).Nodup)
    (hacyclic : ∀ name, ¬ TransGen (Inherits models) name name) :
    BaseClasses.SettledTo (passes budget {} models).1 (leftover budget models)
      (leftover budget models).length := by
  obtain ⟨ready, _, hperm⟩ := passes_puts budget {} models
  have hleft := perm_leftover budget models
  have hwaiting : ((passes budget {} models).2.map Model.qualifiedName).Nodup := by
    have hnames := (hperm.map Model.qualifiedName).nodup_iff.2 hd
    rw [List.map_append] at hnames
    exact (List.nodup_append.1 hnames).2.1
  have hextends : ∀ a b, BaseClasses.Extends (passes budget {} models).1
      (passes budget {} models).2 a b → Inherits models a b := by
    rintro a b ⟨m, hm, rfl, hb⟩
    have hall : ∀ r, r ∈ models.map Model.qualifiedName ↔
        r ∈ (passes budget {} models).1.names ∨
          r ∈ (passes budget {} models).2.map Model.qualifiedName := fun r => by
      rw [mem_names_iff budget models, (hleft.map Model.qualifiedName).mem_iff]
    exact ⟨m, hperm.subset (List.mem_append_right _ hm), rfl,
      ((BaseClasses.mem_waitingBases hall).1 hb).1⟩
  have hsettles := BaseClasses.arrange_settles hwaiting fun a hloop =>
    hacyclic a (TransGen.mono hextends _ _ hloop)
  rw [hleft.length_eq]
  exact hsettles.2

/-- Then a model of the last pass that has waiting base classes stands behind one of them. -/
theorem exists_base_of_waiting (hd : (models.map Model.qualifiedName).Nodup)
    (hacyclic : ∀ name, ¬ TransGen (Inherits models) name name) {m : Model}
    {front back : List Model} (hm : leftover budget models = front ++ m :: back) {b : String}
    (hb : b ∈ baseNames models m)
    (hwaits : b ∈ (leftover budget models).map Model.qualifiedName) :
    ∃ b ∈ baseNames models m, b ∈ front.map Model.qualifiedName := by
  have hbases : ∀ b, b ∈ BaseClasses.waitingBases (passes budget {} models).1
      ((leftover budget models).map Model.qualifiedName) m ↔
        b ∈ baseNames models m ∧ b ∈ (leftover budget models).map Model.qualifiedName :=
    fun b => BaseClasses.mem_waitingBases (mem_names_iff budget models)
  have hleft := (List.nodup_append.1 (nodup_leftover budget hd)).2.1
  obtain ⟨b', hb', hfront⟩ := (settledTo_leftover hd hacyclic).exists_base hleft hm
    (List.ne_nil_of_mem ((hbases b).2 ⟨hb, hwaits⟩))
  exact ⟨b', ((hbases b').1 hb').1, hfront⟩

/-- **Base classes come first, if only one of them waits.** Let all names differ, every base
class of a model be among its references, every reference be the name of a model, and base
classes form no cycle. Then the sort succeeds, and every model stands behind each base class
that the passes placed, behind one of those that they left if they left any, and so behind
all of them if they left at most one. -/
theorem bases_first (budget : Nat) (models : List Model)
    (hd : (models.map Model.qualifiedName).Nodup)
    (hreferred : ∀ m ∈ models, ∀ b ∈ baseNames models m, b ∈ m.references)
    (hdefined : ∀ m ∈ models, ∀ r ∈ m.references, r ∈ models.map Model.qualifiedName)
    (hacyclic : ∀ name, ¬ TransGen (Inherits models) name name) :
    ∃ p, sortModels budget models = .ok p ∧ ∀ m ∈ models,
      (∀ b ∈ baseNames models m, b ∈ (passes budget {} models).1.names →
        p.Precedes b m.qualifiedName) ∧
      ((∃ b ∈ baseNames models m, b ∉ (passes budget {} models).1.names) →
        ∃ b ∈ baseNames models m, b ∉ (passes budget {} models).1.names ∧
          p.Precedes b m.qualifiedName) ∧
      ((∀ b ∈ baseNames models m, ∀ b' ∈ baseNames models m,
        b ∉ (passes budget {} models).1.names → b' ∉ (passes budget {} models).1.names → b = b') →
        ∀ b ∈ baseNames models m, p.Precedes b m.qualifiedName) := by
  have hother : ∀ m ∈ models, ∀ b ∈ baseNames models m, b ≠ m.qualifiedName := by
    rintro m hm b hb rfl
    exact hacyclic _ (.single ⟨m, hm, rfl, hb⟩)
  cases h : sortModels budget models with
  | error failures =>
    obtain ⟨hsome, hperm⟩ := perm_of_sortModels_error h
    have hnone : models.filter (Dangles models) = [] := by
      refine List.filter_eq_nil_iff.2 fun m hm hdangles => ?_
      obtain ⟨r, hr, hunknown⟩ := of_decide_eq_true hdangles
      exact hunknown (hdefined m hm r hr)
    rw [hnone, List.map_nil, List.perm_nil] at hperm
    exact absurd hperm hsome
  | ok p =>
    refine ⟨p, rfl, fun m hm => ?_⟩
    have hplaced : ∀ b ∈ baseNames models m, b ∈ (passes budget {} models).1.names →
        p.Precedes b m.qualifiedName := by
      intro b hb hbplaced
      rcases placed_or_left budget hd hm with hmplaced | ⟨front, back, hsplit⟩
      · exact precedes_of_placed hd h hm hmplaced (hreferred m hm b hb) (hother m hm b hb)
      · exact precedes_of_waiting hd h hsplit (.inl hbplaced)
    have hwaiting : (∃ b ∈ baseNames models m, b ∉ (passes budget {} models).1.names) →
        ∃ b ∈ baseNames models m, b ∉ (passes budget {} models).1.names ∧
          p.Precedes b m.qualifiedName := by
      rintro ⟨b, hb, hwaits⟩
      have hbleft := ((mem_names_iff budget models b).1
        (hdefined m hm b (hreferred m hm b hb))).resolve_left hwaits
      rcases placed_or_left budget hd hm with hmplaced | ⟨front, back, hsplit⟩
      · exact ⟨b, hb, hwaits,
          precedes_of_placed hd h hm hmplaced (hreferred m hm b hb) (hother m hm b hb)⟩
      · obtain ⟨b', hb', hfront⟩ := exists_base_of_waiting hd hacyclic hsplit hb hbleft
        refine ⟨b', hb', fun hb'placed => ?_, precedes_of_waiting hd h hsplit (.inr hfront)⟩
        refine (List.nodup_append.1 (nodup_leftover budget hd)).2.2 b' hb'placed b' ?_ rfl
        rw [hsplit, List.map_append]
        exact List.mem_append_left _ hfront
    refine ⟨hplaced, hwaiting, fun hone b hb => ?_⟩
    by_cases hbplaced : b ∈ (passes budget {} models).1.names
    · exact hplaced b hb hbplaced
    · obtain ⟨b', hb', hb'waits, hprecedes⟩ := hwaiting ⟨b, hb, hbplaced⟩
      exact hone b hb b' hb' hbplaced hb'waits ▸ hprecedes

end Sorted

theorem acyclic_of_measure {models : List Model} (measure : String → Nat)
    (h : ∀ m ∈ models, ∀ b ∈ baseNames models m, measure b < measure m.qualifiedName)
    (name : String) : ¬ TransGen (Inherits models) name name := by
  refine no_loop_of_measure measure ?_ name
  rintro _ b ⟨m, hm, rfl, hb⟩
  exact h m hm b hb

/-- A child of a parent of a root that refers to the child: the reference cycle leaves all
three to the last pass, each with one base class at most, and they come from the root on. -/
theorem bases_first_chain :
    let models : List Model :=
      [{ name := "Child", bases := ["Parent"], references := ⟨["Parent"], by decide⟩ },
        { name := "Parent", bases := ["Root"], references := ⟨["Root"], by decide⟩ },
        { name := "Root", references := ⟨["Child"], by decide⟩ }]
    ∃ p, sortModels defaultPasses models = .ok p ∧ ∀ m ∈ models,
      (∀ b ∈ baseNames models m, b ∈ (passes defaultPasses {} models).1.names →
        p.Precedes b m.qualifiedName) ∧
      ((∃ b ∈ baseNames models m, b ∉ (passes defaultPasses {} models).1.names) →
        ∃ b ∈ baseNames models m, b ∉ (passes defaultPasses {} models).1.names ∧
          p.Precedes b m.qualifiedName) ∧
      ((∀ b ∈ baseNames models m, ∀ b' ∈ baseNames models m,
        b ∉ (passes defaultPasses {} models).1.names →
        b' ∉ (passes defaultPasses {} models).1.names → b = b') →
        ∀ b ∈ baseNames models m, p.Precedes b m.qualifiedName) :=
  bases_first defaultPasses _ (by decide) (by decide) (by decide)
    (acyclic_of_measure (["Root", "Parent", "Child"].idxOf ·) (by decide))

/-- Two base classes that wait: `D` is ranked by `A`, which needs no base class, and so comes
in front of its other base class `B`, which has to come behind `C`. -/
theorem bases_not_first_of_two :
    let models : List Model :=
      [{ name := "A", references := ⟨["D"], by decide⟩ },
        { name := "C", references := ⟨["D"], by decide⟩ },
        { name := "D", bases := ["A", "B"], references := ⟨["A", "B"], by decide⟩ },
        { name := "B", bases := ["C"], references := ⟨["C"], by decide⟩ }]
    (models.map Model.qualifiedName).Nodup ∧
      (∀ m ∈ models, ∀ b ∈ baseNames models m, b ∈ m.references) ∧
      (∀ m ∈ models, ∀ r ∈ m.references, r ∈ models.map Model.qualifiedName) ∧
      (∀ name, ¬ TransGen (Inherits models) name name) ∧
      ∃ p, sortModels defaultPasses models = .ok p ∧
        ¬ ∀ m ∈ models, ∀ b ∈ baseNames models m, p.Precedes b m.qualifiedName :=
  ⟨by decide, by decide, by decide,
    acyclic_of_measure (["C", "B", "A", "D"].idxOf ·) (by decide), _, rfl, by decide⟩

end Bindery
