import Bindery.Formatter.Tr
import Bindery.Proofs.Formatter.Octets
import Mathlib.Data.List.Destutter

/-! What is left of a filtered text.

A table that is filled from the front holds at each place what was written there last
(`getD_foldl_setIfInBounds`), so a table of members says of each byte whether it is in the set that
was written down (`isMember_memberTable`). From a text a set or its complement is deleted, which
leaves the characters that are not in it (`Tr.filters_delete`); or it is squeezed, which leaves no
character of it beside an equal one (`Tr.filters_squeeze`). -/
namespace Bindery.Formatter

/-! ### Tables -/

section Tables
variable {α β : Type} (place : β → Nat) (value : β → α)

theorem size_foldl_setIfInBounds (writes : List β) (table : Array α) :
    (writes.foldl (fun t b => t.setIfInBounds (place b) (value b)) table).size = table.size :=
  List.foldlRecOn (motive := fun t : Array α => t.size = table.size) writes _ rfl
    fun _ ht _ _ => by rw [Array.size_setIfInBounds, ht]

/-- Of what is written at a place of a table the last stays. -/
theorem getD_foldl_setIfInBounds (writes : List β) (table : Array α) {i : Nat}
    (hi : i < table.size) (d : α) :
    (writes.foldl (fun t b => t.setIfInBounds (place b) (value b)) table).getD i d =
      ((writes.reverse.find? (place · = i)).map value).getD (table.getD i d) := by
  induction writes using List.reverseRecOn with
  | nil => rfl
  | append_singleton before b ih =>
    have hsize := size_foldl_setIfInBounds place value before table
    rw [List.foldl_append, List.foldl_cons, List.foldl_nil, List.reverse_append]
    generalize before.foldl _ table = written at ih hsize ⊢
    simp only [Array.getD_eq_getD_getElem?, Array.getElem?_setIfInBounds, List.reverse_singleton,
      List.singleton_append, List.find?_cons] at ih ⊢
    by_cases hplace : place b = i
    · simp [hplace, hsize, hi]
    · simp [hplace, ih]

end Tables

/-! ### Octets -/

theorem allOctets_eq : allOctets = (List.range 256).map Char.ofNat := by
  simp [allOctets, charRange]

theorem mem_allOctets {c : Char} (hc : c.toNat < 256) : c ∈ allOctets := by
  rw [allOctets_eq]
  exact List.mem_map.2 ⟨c.toNat, List.mem_range.2 hc, Char.ofNat_toNat c⟩

theorem getD_allOctets {c : Char} (hc : c.toNat < 256) : allOctets.toArray.getD c.toNat c = c := by
  rw [allOctets_eq, Array.getD_eq_getD_getElem?]
  simp [hc, Char.ofNat_toNat]

theorem isMember_memberTable {cs : List Char} {c : Char} (hc : c.toNat < 256) :
    isMember (memberTable cs) c = decide (c ∈ cs) := by
  have hlast := getD_foldl_setIfInBounds Char.toNat (fun _ => true) cs
    (Array.replicate 256 false) (i := c.toNat) (by simpa using hc) false
  rw [isMember, memberTable, hlast]
  by_cases hmem : c ∈ cs
  · obtain ⟨d, hd⟩ : ∃ d, cs.reverse.find? (Char.toNat · = c.toNat) = some d :=
      Option.isSome_iff_exists.1 (List.find?_isSome.2 ⟨c, by simpa using hmem, by simp⟩)
    simp [hd, hmem]
  · have hnone : cs.reverse.find? (Char.toNat · = c.toNat) = none := by
      simp only [List.find?_eq_none, List.mem_reverse, decide_eq_true_eq, Char.toNat_inj]
      intro d hd hdc
      exact hmem (hdc ▸ hd)
    simp [hnone, hmem, hc]

namespace Tr
variable {text : Octets}

/-! ### Deleting and squeezing -/

section Members
variable {table : Array Bool} {p : Char → Prop} [DecidablePred p]

theorem apply_delete (htable : ∀ c ∈ text, isMember table c = decide (p c)) :
    (Filter.delete table).apply text = text.filter fun c => ¬p c := by
  refine List.filter_congr fun c hc => ?_
  rw [htable c hc, decide_not]

theorem foldl_squeeze (htable : ∀ c ∈ text, isMember table c = decide (p c)) (a : Char)
    (out : Array Char) :
    (text.foldl (fun (last?, out) c => if last? = some c ∧ isMember table c then (last?, out)
        else (some c, out.push c)) (some a, out.push a)).2.toList =
      out.toList ++ text.destutter' (fun a b => a = b → ¬p b) a := by
  induction text generalizing a out with
  | nil => simp
  | cons b rest ih =>
    obtain ⟨hb, hrest⟩ := List.forall_mem_cons.1 htable
    rw [List.foldl_cons, List.destutter'_cons]
    change (rest.foldl _ (if some a = some b ∧ isMember table b = true then
      (some a, out.push a) else (some b, (out.push a).push b))).2.toList = _
    rw [hb]
    by_cases hrepeat : a = b ∧ p b
    · have hdropped : ¬(a = b → ¬p b) := by simpa using hrepeat
      rw [if_pos (by simpa using hrepeat), if_neg hdropped, ih hrest]
    · have hkept : a = b → ¬p b := by simpa using hrepeat
      rw [if_neg (by simpa using hrepeat), if_pos hkept, ih hrest, Array.toList_push,
        List.append_assoc, List.singleton_append]

theorem apply_squeeze (htable : ∀ c ∈ text, isMember table c = decide (p c)) :
    (Filter.squeeze table).apply text = text.destutter fun a b => a = b → ¬p b := by
  cases text with
  | nil => rfl
  | cons a rest => exact foldl_squeeze (List.forall_mem_cons.1 htable).2 a #[]

end Members

section Single
variable {choice : Choice} {first : CharSet}

/-- The characters that are chosen: a set or its complement. -/
def chosen (choice : Choice) (first : CharSet) : Octets :=
  if choice.complement then allOctets.filter fun c => !first.chars.contains c else first.chars

theorem isMember_chosen (choice : Choice) (first : CharSet) {c : Char} (hc : c.toNat < 256) :
    isMember (memberTable (chosen choice first)) c =
      decide (¬(c ∈ first.chars ↔ choice.complement = true)) := by
  rw [isMember_memberTable hc, chosen]
  split
  · next h => simp [h, mem_allOctets hc]
  · next h => simp [h]

theorem filters_none (hfillers : first.fillers = 0) :
    filters choice first none =
      .ok [if choice.squeeze then .squeeze (memberTable (chosen choice first))
        else .delete (memberTable (chosen choice first))] := by
  rw [filters, hfillers]
  rfl

/-- **A text from which a set is deleted** is what of it is not in the set, or what is in the set
if the complement is deleted. -/
theorem filters_delete (hfillers : first.fillers = 0) (hsqueeze : choice.squeeze = false) :
    ∃ f, filters choice first none = .ok [f] ∧ ∀ text, AreOctets text →
      f.apply text = text.filter fun c => c ∈ first.chars ↔ choice.complement = true := by
  refine ⟨.delete (memberTable (chosen choice first)), by simp [filters_none hfillers, hsqueeze],
    fun text htext => ?_⟩
  have hdeleted := apply_delete fun c hc =>
    isMember_chosen choice first (htext c hc)
  simpa only [not_not] using hdeleted

/-- **A text in which a set is squeezed** has no repeats of a character in the set. -/
theorem filters_squeeze (hfillers : first.fillers = 0) (hsqueeze : choice.squeeze = true) :
    ∃ f, filters choice first none = .ok [f] ∧ ∀ text, AreOctets text →
      f.apply text = text.destutter fun a b =>
        a = b → (b ∈ first.chars ↔ choice.complement = true) := by
  refine ⟨.squeeze (memberTable (chosen choice first)), by simp [filters_none hfillers, hsqueeze],
    fun text htext => ?_⟩
  have hsqueezed := apply_squeeze fun c hc =>
    isMember_chosen choice first (htext c hc)
  simpa only [not_not] using hsqueezed

end Single

end Tr

end Bindery.Formatter
