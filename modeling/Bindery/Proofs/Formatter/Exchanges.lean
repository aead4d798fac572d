import Bindery.Proofs.Formatter.Filtering

/-! What characters are exchanged for.

Two sets are walked through side by side, run by run. What is paired on the way is what stands at
the same place when the sets are spelled out, and what is paired last with a character counts
(`Tr.lookup_pairs`). A target that is too short goes on with its last character. So a text that is
exchanged has each of its characters replaced by what stands against it (`Tr.filters_exchange`). -/
namespace Bindery.Formatter

namespace Tr
variable {text : Octets}

/-! ### Exchanging -/

/-- The characters of runs, each as often as it counts. -/
def spelled (runs : List CharRun) : List Char := runs.flatMap fun r => List.replicate r.count r.char

theorem zip_replicate_append (p q : Nat) (x y : Char) (xs ys : List Char) :
    (List.replicate p x ++ xs).zip (List.replicate q y ++ ys) =
      List.replicate (min p q) (x, y) ++
        (List.replicate (p - q) x ++ xs).zip (List.replicate (q - p) y ++ ys) := by
  have hsplit : ∀ (n : Nat) (z : Char) (zs : List Char), min p q ≤ n →
      List.replicate n z ++ zs =
        List.replicate (min p q) z ++ (List.replicate (n - min p q) z ++ zs) := by
    intro n z zs hn
    rw [← List.append_assoc, ← List.replicate_add, Nat.add_sub_cancel' hn]
  have hp : p - min p q = p - q := by omega
  have hq : q - min p q = q - p := by omega
  rw [hsplit p x xs (by omega), hsplit q y ys (by omega), List.zip_append (by simp),
    List.zip_replicate', hp, hq]

/-- The runs behind so many characters of a run. -/
def behind (r : CharRun) (count : Nat) (rs : List CharRun) : List CharRun :=
  if r.count ≤ count then rs else { r with count := r.count - count, starts := false } :: rs

theorem spelled_behind (r : CharRun) (count : Nat) (rs : List CharRun) :
    spelled (behind r count rs) = List.replicate (r.count - count) r.char ++ spelled rs := by
  unfold behind
  split
  · next h => rw [Nat.sub_eq_zero_of_le h, List.replicate_zero, List.nil_append]
  · rfl

theorem forall_mem_behind {p : CharRun → Prop} {r : CharRun} {rs : List CharRun} (count : Nat)
    (hr : ∀ n, 0 < n → p { r with count := n, starts := false }) (hrs : ∀ s ∈ rs, p s) :
    ∀ s ∈ behind r count rs, p s := by
  unfold behind
  split
  · exact hrs
  · next h => exact List.forall_mem_cons.2 ⟨hr _ (by omega), hrs⟩

theorem length_behind_add (a b : CharRun) (as bs : List CharRun) :
    (behind a b.count as).length + (behind b a.count bs).length ≤ as.length + bs.length + 1 := by
  unfold behind
  split <;> split <;> grind

theorem advance_of_case {a b : CharRun} {as bs : List CharRun} (hcase : b.case? = none) :
    advance a as b bs = (behind a b.count as, behind b a.count bs) := by
  unfold advance
  rw [if_neg (by simp [hcase])]
  rfl

theorem exchanges_of_case {a b : CharRun} (hcase : b.case? = none) :
    exchanges (a, b) = [(a.char, b.char)] := by
  unfold exchanges
  split
  · next h => simp [hcase] at h
  · next h => simp [hcase] at h
  · rfl

/-- A character is exchanged for the last one that stands against it. -/
theorem lookup_pairs {fuel : Nat} (as bs : List CharRun) (hfuel : as.length + bs.length ≤ fuel)
    (has : ∀ r ∈ as, 0 < r.count) (hbs : ∀ r ∈ bs, 0 < r.count ∧ r.case? = none) (c : Char) :
    ((pairs fuel as bs).1.flatMap exchanges).reverse.lookup c =
      ((spelled as).zip (spelled bs)).reverse.lookup c := by
  induction fuel generalizing as bs with
  | zero =>
    obtain rfl : as = [] := List.eq_nil_of_length_eq_zero (by omega)
    rfl
  | succ fuel ih =>
    cases as with
    | nil => rfl
    | cons a as =>
      cases bs with
      | nil => simp [pairs, spelled]
      | cons b bs =>
        obtain ⟨ha, has⟩ := List.forall_mem_cons.1 has
        obtain ⟨⟨hb, hcase⟩, hbs⟩ := List.forall_mem_cons.1 hbs
        -- At least one of the rows loses its first run, so the steps are enough.
        have hshorter := length_behind_add a b as bs
        have hcount : 0 < min a.count b.count := Nat.lt_min.2 ⟨ha, hb⟩
        have hzip : (spelled (a :: as)).zip (spelled (b :: bs)) =
            List.replicate (min a.count b.count) (a.char, b.char) ++
              (spelled (behind a b.count as)).zip (spelled (behind b a.count bs)) := by
          rw [spelled_behind, spelled_behind]
          exact zip_replicate_append _ _ _ _ _ _
        have hrest := ih (behind a b.count as) (behind b a.count bs)
          (by simp only [List.length_cons] at hfuel; omega)
          (forall_mem_behind b.count (fun _ hn => hn) has)
          (forall_mem_behind a.count (fun _ hn => ⟨hn, hcase⟩) hbs)
        rw [pairs, advance_of_case hcase, hzip, List.reverse_append, List.lookup_append, ← hrest,
          List.reverse_replicate, List.lookup_replicate_of_pos hcount, List.flatMap_cons,
          exchanges_of_case hcase, List.reverse_append, List.lookup_append]
        by_cases hc : c = a.char <;> simp [hc]

theorem map_find?_eq_lookup (l : List (Char × Char)) (c : Char) :
    (l.find? (·.1.toNat = c.toNat)).map (·.2) = l.lookup c := by
  induction l with
  | nil => rfl
  | cons p rest ih =>
    obtain ⟨a, b⟩ := p
    rw [List.find?_cons, List.lookup_cons]
    by_cases hc : a = c
    · simp [hc]
    · have hother : (c == a) = false := by simpa using Ne.symm hc
      simpa [hc, hother, Char.toNat_inj] using ih

theorem run_of_mem {part : SetPart} {r : CharRun} (hr : r ∈ part.runs) :
    0 < r.count ∧ r.case? = part.case? := by
  cases part with
  | single c | same c =>
    obtain rfl := List.mem_singleton.1 hr
    exact ⟨Nat.one_pos, rfl⟩
  | range first last | members k =>
    obtain ⟨entry, _, rfl⟩ := List.mem_map.1 hr
    exact ⟨Nat.one_pos, rfl⟩
  | repeated c count =>
    rw [SetPart.runs] at hr
    split at hr
    · exact absurd hr List.not_mem_nil
    · next hcount =>
      obtain rfl := List.mem_singleton.1 hr
      exact ⟨Nat.pos_of_ne_zero hcount, rfl⟩

theorem count_pos_of_mem_runs {s : CharSet} {r : CharRun} (hr : r ∈ s.runs) : 0 < r.count := by
  obtain ⟨part, _, hpart⟩ := List.mem_flatMap.1 hr
  exact (run_of_mem hpart).1

/-- What a character is exchanged for if sets are spelled out. -/
def exchanged (sources targets : List Char) (c : Char) : Char :=
  ((sources.zip targets).reverse.lookup c).getD c

/-- **What a table exchanges a character for** is the last character that stands against it. -/
theorem apply_exchangeTable {choice : Choice} {first target : CharSet} (htext : AreOctets text)
    (hcomplement : choice.complement = false) (htarget : ∀ r ∈ target.runs, r.case? = none) :
    (Filter.exchange (exchangeTable choice first target)).apply text =
      text.map (exchanged (spelled first.runs) (spelled target.runs)) := by
  refine List.map_congr_left fun c hc => ?_
  have hoctet := htext c hc
  have hlast := getD_foldl_setIfInBounds (fun p : Char × Char => p.1.toNat) (·.2)
    ((allPairs first.runs target.runs).1.flatMap exchanges) allOctets.toArray
    (by simpa [allOctets_eq] using hoctet) c
  have hpairs := lookup_pairs first.runs target.runs le_rfl
    (fun r hr => count_pos_of_mem_runs (s := first) hr)
    (fun r hr => ⟨count_pos_of_mem_runs (s := target) hr, htarget r hr⟩) c
  rw [getD_allOctets hoctet, map_find?_eq_lookup, allPairs, hpairs] at hlast
  rw [exchanged, ← hlast, exchangeTable, hcomplement]
  rfl

/-! ### Targets -/

/-- What is written out in a target: no class, no equivalent, no repeat that fills up. -/
def IsPlain : SetPart → Prop
  | .single _ => True
  | .range first last => first ≤ last
  | .repeated _ count => 0 < count
  | .members _ | .same _ => False

section Plain
variable {s : CharSet} (hs : ∀ p ∈ s, IsPlain p)
include hs

theorem fillers_of_plain : s.fillers = 0 := by
  refine List.countP_eq_zero.2 fun p hp => ?_
  have hplain := hs p hp
  split
  · exact absurd hplain (Nat.lt_irrefl 0)
  · exact Bool.false_ne_true

theorem fill_of_plain (count : Nat) : s.fill count = s := by
  refine (List.map_congr_left fun p hp => ?_).trans s.map_id
  have hplain := hs p hp
  split
  · exact absurd hplain (Nat.lt_irrefl 0)
  · rfl

theorem case_of_plain : ∀ r ∈ s.runs, r.case? = none := by
  intro r hr
  obtain ⟨part, hpart, hr⟩ := List.mem_flatMap.1 hr
  rw [(run_of_mem hr).2]
  cases part with
  | members k | same c => exact (hs _ hpart).elim
  | single c | range first last | repeated c count => rfl

end Plain

theorem length_eq_length_spelled (s : CharSet) : s.length = (spelled s.runs).length := by
  have hrun : ∀ (rs : List CharRun) (n : Nat), rs.foldl (fun n r => n + r.count) n =
      n + (spelled rs).length := by
    intro rs
    induction rs with
    | nil => simp [spelled]
    | cons r rs ih =>
      intro n
      rw [List.foldl_cons, ih]
      simp [spelled, Nat.add_assoc]
  rw [CharSet.length, hrun, Nat.zero_add]

theorem case_of_pairs (fuel : Nat) (as : List CharRun) {bs : List CharRun}
    (hbs : ∀ r ∈ bs, r.case? = none) :
    (∀ p ∈ (pairs fuel as bs).1, p.2.case? = none) ∧
      ∀ r ∈ (pairs fuel as bs).2, r.case? = none := by
  induction fuel generalizing as bs with
  | zero => exact ⟨by simp [pairs], hbs⟩
  | succ fuel ih =>
    cases as with
    | nil => exact ⟨by simp [pairs], hbs⟩
    | cons a as =>
      cases bs with
      | nil => exact ⟨by simp [pairs], by simp [pairs]⟩
      | cons b bs =>
        obtain ⟨hb, hbs⟩ := List.forall_mem_cons.1 hbs
        have hleft := ih (behind a b.count as)
          (forall_mem_behind a.count (fun _ _ => hb) hbs)
        rw [pairs, advance_of_case hb]
        exact ⟨List.forall_mem_cons.2 ⟨hb, hleft.1⟩, hleft.2⟩

theorem isMisaligned_of_case {as bs : List CharRun} (hbs : ∀ r ∈ bs, r.case? = none) :
    isMisaligned as bs = false := by
  obtain ⟨hpairs, hleft⟩ := case_of_pairs (as.length + bs.length) as hbs
  rw [isMisaligned, allPairs]
  generalize pairs _ as bs = result at hpairs hleft
  obtain ⟨below, left⟩ := result
  have hbelow : (below.any fun p => startsClass p.2 && !startsClass p.1) = false := by
    simp only [List.any_eq_false]
    intro p hp
    simp [startsClass, hpairs p hp]
  have hhead : left.head?.any startsClass = false := by
    cases left with
    | nil => rfl
    | cons r rest => simp [startsClass, hleft r List.mem_cons_self]
  simpa [hhead] using hbelow

/-- The last character of a part that is written out. -/
def lastOf : SetPart → Char
  | .single c | .range _ c | .same c | .repeated c _ => c
  | .members _ => default

theorem spelled_each (cs : List Char) (case? : Option LetterCase) :
    spelled (cs.zipIdx.map fun (char, i) => { char, case?, starts := i = 0 }) = cs := by
  have hones : ∀ entries : List (Char × Nat), spelled (entries.map fun (char, i) =>
      { char, case?, starts := i = 0 }) = entries.map (·.1) := by
    intro entries
    induction entries with
    | nil => rfl
    | cons entry rest ih =>
      rw [List.map_cons, List.map_cons, ← ih]
      rfl
  rw [hones, List.zipIdx_map_fst]

theorem spelled_range (first last : Char) :
    spelled (SetPart.range first last).runs = charRange first last := by
  rw [SetPart.runs]
  exact spelled_each _ none

theorem spelled_singleton (p : SetPart) : spelled (CharSet.runs [p]) = spelled p.runs := by
  rw [CharSet.runs, List.flatMap_cons, List.flatMap_nil, List.append_nil]

/-- A range has whatever is between its ends. -/
theorem mem_spelled_range {first last c : Char} (hfirst : first ≤ c) (hlast : c ≤ last) :
    c ∈ spelled (CharSet.runs [.range first last]) := by
  have hlow : first.toNat ≤ c.toNat := hfirst
  have hhigh : c.toNat ≤ last.toNat := hlast
  rw [spelled_singleton, spelled_range]
  refine List.mem_map.2 ⟨c.toNat - first.toNat, List.mem_range.2 (by omega), ?_⟩
  rw [Nat.add_sub_cancel' hlow, Char.ofNat_toNat]

theorem toNat_le_of_mem_spelled_range {first last c : Char}
    (hc : c ∈ spelled (CharSet.runs [.range first last])) : c.toNat ≤ last.toNat := by
  rw [spelled_singleton, spelled_range] at hc
  obtain ⟨i, hi, rfl⟩ := List.mem_map.1 hc
  have hwithin : first.toNat + i ≤ last.toNat := by
    have hlt := List.mem_range.1 hi
    omega
  by_cases hvalid : (first.toNat + i).isValidChar
  · rw [Char.ofNat, dif_pos hvalid]
    exact hwithin
  · rw [Char.ofNat, dif_neg hvalid]
    exact Nat.zero_le _

theorem spelled_of_plain {p : SetPart} (hp : IsPlain p) :
    ∃ before, spelled p.runs = before ++ [lastOf p] := by
  cases p with
  | single c => exact ⟨[], rfl⟩
  | range first last =>
    have hle : first.toNat ≤ last.toNat := hp
    have hcount : last.toNat + 1 - first.toNat = (last.toNat - first.toNat) + 1 := by omega
    refine ⟨(List.range (last.toNat - first.toNat)).map fun i => Char.ofNat (first.toNat + i), ?_⟩
    rw [spelled_range, charRange, hcount, List.range_succ, List.map_append, List.map_singleton,
      Nat.add_sub_cancel' hle, Char.ofNat_toNat]
    rfl
  | repeated c count =>
    obtain ⟨n, rfl⟩ := Nat.exists_eq_succ_of_ne_zero (Nat.ne_of_gt hp)
    exact ⟨List.replicate n c, by simp [SetPart.runs, spelled, lastOf, List.replicate_succ']⟩
  | members k | same c => exact hp.elim

theorem spelled_append_singleton (front : CharSet) {p : SetPart} (hp : IsPlain p) :
    ∃ before, spelled (CharSet.runs (front ++ [p])) = before ++ [lastOf p] := by
  obtain ⟨before, hbefore⟩ := spelled_of_plain hp
  refine ⟨spelled (CharSet.runs front) ++ before, ?_⟩
  rw [List.append_assoc, ← hbefore]
  simp [CharSet.runs, spelled]

/-- A target as far as it has to reach. -/
def extended (choice : Choice) (first front : CharSet) (p : SetPart) : CharSet :=
  front ++ [p] ++
    if first.length ≤ CharSet.length (front ++ [p]) || choice.truncate then []
    else [.repeated (lastOf p) (first.length - CharSet.length (front ++ [p]))]

theorem plain_extended {choice : Choice} {first front : CharSet} {p : SetPart}
    (hsecond : ∀ q ∈ front ++ [p], IsPlain q) :
    ∀ q ∈ extended choice first front p, IsPlain q := by
  intro q hq
  obtain hq | hq := List.mem_append.1 hq
  · exact hsecond q hq
  · split at hq
    · simp at hq
    · next hshort =>
      obtain rfl := List.mem_singleton.1 hq
      simp only [Bool.or_eq_true, decide_eq_true_eq, not_or] at hshort
      exact Nat.sub_pos_of_lt (Nat.lt_of_not_le hshort.1)

theorem spelled_extended (choice : Choice) (first front : CharSet) (p : SetPart) :
    spelled (extended choice first front p).runs = spelled (CharSet.runs (front ++ [p])) ++
      List.replicate (if choice.truncate then 0 else first.length - CharSet.length (front ++ [p]))
        (lastOf p) := by
  rw [extended, CharSet.runs, List.flatMap_append, spelled, List.flatMap_append]
  refine congrArg (_ ++ ·) ?_
  by_cases htruncate : choice.truncate = true
  · simp [htruncate]
  · by_cases hlong : first.length ≤ CharSet.length (front ++ [p])
    · simp [htruncate, hlong, Nat.sub_eq_zero_of_le hlong]
    · simp [htruncate, hlong, SetPart.runs, Nat.sub_eq_zero_iff_le]

/-- A target that is too short goes on with its last character, unless the first set is cut. -/
theorem target_of_plain {choice : Choice} {first front : CharSet} {p : SetPart}
    (hcomplement : choice.complement = false) (hsecond : ∀ q ∈ front ++ [p], IsPlain q) :
    target choice first (front ++ [p]) = .ok (extended choice first front p) := by
  have hnone : ∀ f : SetPart → Bool, (∀ q, IsPlain q → f q = false) →
      (front ++ [p]).any f = false := fun f hf => List.any_eq_false.2 fun q hq => by
    rw [hf q (hsecond q hq)]
    exact Bool.false_ne_true
  have hclasses : ((allPairs first.runs (CharSet.runs (front ++ [p]))).1.filter
      fun pair => pair.2.case?.isSome) = [] := List.filter_eq_nil_iff.2 fun q hq => by
    rw [(case_of_pairs _ _ (case_of_plain hsecond)).1 q hq]
    exact Bool.false_ne_true
  have hplain : IsPlain p := hsecond p (by simp)
  have hcount : CharSet.length (front ++ [p]) ≠ 0 := by
    obtain ⟨before, hbefore⟩ := spelled_append_singleton front hplain
    simp [length_eq_length_spelled, hbefore]
  unfold target extended
  simp only [hcomplement, fillers_of_plain hsecond, fill_of_plain hsecond, ite_self, hclasses,
    isMisaligned_of_case (case_of_plain hsecond)]
  rw [if_neg (by decide), hnone, hnone]
  -- The target reaches far enough, or its last character is repeated.
  · by_cases henough : (first.length ≤ CharSet.length (front ++ [p]) || choice.truncate) = true
    · simp only [List.length_nil, Nat.mul_zero, Nat.sub_zero, Bool.false_eq_true, if_false, henough,
        if_true, List.append_nil]
      rfl
    · simp only [List.length_nil, Nat.mul_zero, Nat.sub_zero, Bool.false_eq_true, if_false, henough,
        hcount, List.getLast?_concat]
      cases p with
      | single c | range a c | repeated c n => rfl
      | members k | same c => exact hplain.elim
  · intro q hq
    cases q <;> first | rfl | exact hq.elim
  · intro q hq
    cases q <;> first | rfl | exact hq.elim

/-- **A text that is exchanged** has each character replaced by the last one that stands against
it. -/
theorem filters_exchange (choice : Choice) {first front : CharSet} {p : SetPart}
    (hcomplement : choice.complement = false) (hdelete : choice.delete = false)
    (hsqueeze : choice.squeeze = false) (hfirst : first.fillers = 0)
    (hsecond : ∀ q ∈ front ++ [p], IsPlain q) :
    ∃ f, filters choice first (some (front ++ [p])) = .ok [f] ∧ ∀ text, AreOctets text →
      f.apply text = text.map
        (exchanged (spelled first.runs) (spelled (extended choice first front p).runs)) := by
  refine ⟨.exchange (exchangeTable choice first (extended choice first front p)), ?_,
    fun text htext => ?_⟩
  · simp only [filters, hfirst, hdelete, hsqueeze, target_of_plain hcomplement hsecond]
    rfl
  · exact apply_exchangeTable htext hcomplement (case_of_plain (plain_extended hsecond))

end Tr

end Bindery.Formatter
