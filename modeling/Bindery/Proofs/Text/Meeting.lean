import Bindery.Proofs.Text.Boundaries

/-! Which names have one form in snake case.

Two names meet if they are spelled alike up to capitals, and where an underscore is put into one of
them, the other one has it put in as well or has it already (`Meet`). This is read off the names
alone, and it is exactly when their forms in snake case are equal (`snakeCase_eq_iff`). Two letters
are left out, because what they become is not one letter, or not always the same one (`IsLevel`). -/
namespace Bindery.Text

/-- Two spellings of one name in snake case. -/
inductive Meet : List Char → List Char → Prop where
  | nil : Meet [] []
  /-- The same letter, and an underscore put in behind both or behind neither. -/
  | both {x y : Char} {as bs : List Char} :
      lowerChar x = lowerChar y → (Boundary x as ↔ Boundary y bs) → Meet as bs →
        Meet (x :: as) (y :: bs)
  /-- An underscore put in on the left, which stands there on the right. -/
  | left {x y : Char} {as bs : List Char} :
      lowerChar x = lowerChar y → Boundary x as → ¬ Boundary '_' bs → Meet as bs →
        Meet (x :: as) (y :: '_' :: bs)
  /-- An underscore put in on the right, which stands there on the left. -/
  | right {x y : Char} {as bs : List Char} :
      lowerChar x = lowerChar y → ¬ Boundary '_' as → Boundary y bs → Meet as bs →
        Meet (x :: '_' :: as) (y :: bs)

/-- Each letter of a name has one lower case letter, wherever it stands. -/
def IsLevel (name : String) : Prop := 'Σ' ∉ name.toList ∧ 'İ' ∉ name.toList

instance (name : String) : Decidable (IsLevel name) := inferInstanceAs (Decidable (_ ∧ _))

/-! ### Lower case -/

section Lower
variable {c : Char} {cs : List Char}

theorem lowerFrom_of_level (before : List Char) (hsigma : 'Σ' ∉ cs) (hdotted : 'İ' ∉ cs) :
    lowerFrom before cs = cs.map lowerChar := by
  induction cs generalizing before with
  | nil => rfl
  | cons c rest ih =>
    rw [List.mem_cons, not_or] at hsigma hdotted
    rw [lowerFrom, if_neg (Ne.symm hsigma.1), if_neg (Ne.symm hdotted.1), ih _ hsigma.2 hdotted.2]
    rfl

/-- Nothing but an underscore becomes an underscore. -/
theorem lowerChar_eq_underscore_iff : lowerChar c = '_' ↔ c = '_' := by
  constructor
  · intro h
    have hcode : ∀ n, Char.ofNat n = '_' → n = 95 := by
      intro n hn
      by_cases hvalid : n.isValidChar
      · rw [Char.ofNat, dif_pos hvalid] at hn
        exact congrArg Char.toNat hn
      · rw [Char.ofNat, dif_neg hvalid] at hn
        cases hn
    rw [lowerChar] at h
    cases hfind : upperRanges.find? (·.covers c.toNat) with
    | none => rwa [hfind] at h
    | some r =>
      rw [hfind] at h
      have hcovers := List.find?_some hfind
      have hrange := List.mem_of_find?_eq_some hfind
      have hnone : upperRanges.all (fun r => !r.covers (95 - r.shift).toNat) = true := by
        decide
      have hmoved := List.all_eq_true.1 hnone r hrange
      have hshift : (c.toNat + r.shift).toNat = 95 := hcode _ h
      have hc : (95 - r.shift).toNat = c.toNat := by omega
      rw [hc, hcovers] at hmoved
      cases hmoved
  · rintro rfl
    decide

end Lower

/-! ### Parts -/

section Parts
variable {x : Char} {as bs cs : List Char}

theorem mem_parted {c : Char} (h : c ∈ parted cs) : c = '_' ∨ c ∈ cs := by
  induction cs with
  | nil => cases h
  | cons x rest ih =>
    rw [parted_cons] at h
    split at h <;> simp only [List.mem_cons] at h ⊢ <;> grind

theorem parted_ne_nil (x : Char) (rest : List Char) : parted (x :: rest) ≠ [] := by
  rw [parted_cons]
  split <;> exact List.cons_ne_nil _ _

/-- No underscore is put in front of an underscore. -/
theorem not_boundary_underscore (x : Char) (rest : List Char) : ¬ Boundary x ('_' :: rest) := by
  intro h
  exact absurd h.1 (by decide)

theorem head?_parted (cs : List Char) : (parted cs).head? = cs.head? := by
  cases cs with
  | nil => rfl
  | cons x rest =>
    rw [parted_cons]
    split <;> rfl

/-- What begins with an underscore in lower case begins with one, and none is put in behind it if a
place for one comes next on the other side. -/
theorem underscore_of_boundary (hplace : Boundary x as)
    (h : '_' :: (parted as).map lowerChar = (parted bs).map lowerChar) :
    ∃ rest, bs = '_' :: rest ∧ ¬ Boundary '_' rest ∧
      (parted as).map lowerChar = (parted rest).map lowerChar := by
  cases bs with
  | nil => cases h
  | cons z rest =>
    have hz : z = '_' := by
      have hhead := congrArg List.head? h
      rw [List.head?_map, head?_parted] at hhead
      exact lowerChar_eq_underscore_iff.1 (Option.some.inj hhead).symm
    subst hz
    have hself : lowerChar '_' = '_' := lowerChar_eq_underscore_iff.2 rfl
    have hno : ¬ Boundary '_' rest := by
      intro hyes
      rw [parted_cons, if_pos hyes, List.map_cons, List.map_cons, hself, List.cons.injEq] at h
      -- the left side goes on with a capital
      cases as with
      | nil => exact hplace
      | cons y after =>
        have hhead := congrArg List.head? h.2
        rw [List.head?_map, head?_parted] at hhead
        obtain rfl : y = '_' := lowerChar_eq_underscore_iff.1 (Option.some.inj hhead)
        exact not_boundary_underscore _ _ hplace
    rw [parted_cons, if_neg hno, List.map_cons, hself, List.cons.injEq] at h
    exact ⟨rest, rfl, hno, h.2⟩

end Parts

/-! ### Names -/

section Names
variable {as bs : List Char} {a b : String}

/-- Names whose parts are alike in lower case are spellings of one name. -/
theorem meet_of_parted_eq : (as bs : List Char) →
    (parted as).map lowerChar = (parted bs).map lowerChar → Meet as bs
  | [], [], _ => .nil
  | [], y :: bs, h => absurd (List.map_eq_nil_iff.1 h.symm) (parted_ne_nil y bs)
  | x :: as, [], h => absurd (List.map_eq_nil_iff.1 h) (parted_ne_nil x as)
  | x :: as, y :: bs, h => by
    have hxy : lowerChar x = lowerChar y := by
      have hhead := congrArg List.head? h
      rw [List.head?_map, List.head?_map, head?_parted, head?_parted] at hhead
      exact Option.some.inj hhead
    have hself : lowerChar '_' = '_' := lowerChar_eq_underscore_iff.2 rfl
    rw [parted_cons, parted_cons] at h
    by_cases hx : Boundary x as
    · by_cases hy : Boundary y bs
      · simp only [if_pos hx, if_pos hy, List.map_cons, List.cons.injEq] at h
        exact .both hxy (iff_of_true hx hy) (meet_of_parted_eq as bs h.2.2)
      · simp only [if_pos hx, if_neg hy, List.map_cons, List.cons.injEq, hself] at h
        obtain ⟨rest, rfl, hno, hrest⟩ := underscore_of_boundary hx h.2
        exact .left hxy hx hno (meet_of_parted_eq as rest hrest)
    · by_cases hy : Boundary y bs
      · simp only [if_neg hx, if_pos hy, List.map_cons, List.cons.injEq, hself] at h
        obtain ⟨rest, rfl, hno, hrest⟩ := underscore_of_boundary hy h.2.symm
        exact .right hxy hno hy (meet_of_parted_eq rest bs hrest.symm)
      · simp only [if_neg hx, if_neg hy, List.map_cons, List.cons.injEq] at h
        exact .both hxy (iff_of_false hx hy) (meet_of_parted_eq as bs h.2)
termination_by as bs => as.length + bs.length

theorem Meet.parted_eq (h : Meet as bs) :
    (parted as).map lowerChar = (parted bs).map lowerChar := by
  have hself : lowerChar '_' = '_' := lowerChar_eq_underscore_iff.2 rfl
  induction h with
  | nil => rfl
  | both hxy hplace _ ih =>
    rw [parted_cons, parted_cons]
    split
    · next hx => simp [if_pos (hplace.1 hx), hxy, ih]
    · next hx => simp [if_neg (mt hplace.2 hx), hxy, ih]
  | left hxy hx hno _ ih =>
    rw [parted_cons, if_pos hx, parted_cons, if_neg (not_boundary_underscore _ _), parted_cons,
      if_neg hno]
    simp [hxy, ih]
  | right hxy hno hy _ ih =>
    rw [parted_cons, if_neg (not_boundary_underscore _ _), parted_cons, if_neg hno, parted_cons,
      if_pos hy]
    simp [hxy, ih]

theorem lowerChars_parted (h : IsLevel a) :
    lowerChars (parted a.toList) = (parted a.toList).map lowerChar := by
  apply lowerFrom_of_level
  · intro hmem
    cases mem_parted hmem with
    | inl hc => exact absurd hc (by decide)
    | inr hc => exact h.1 hc
  · intro hmem
    cases mem_parted hmem with
    | inl hc => exact absurd hc (by decide)
    | inr hc => exact h.2 hc

/-- **When two names have one form in snake case.** They are spelled alike up to capitals, and an
underscore that is put into one of them is put into the other one or stands there. -/
theorem snakeCase_eq_iff (ha : IsLevel a) (hb : IsLevel b) :
    snakeCase a = snakeCase b ↔ Meet a.toList b.toList := by
  rw [snakeCase, snakeCase, partCase_partWords, partCase_partWords, String.ofList_inj,
    lowerChars_parted ha, lowerChars_parted hb]
  exact ⟨meet_of_parted_eq _ _, Meet.parted_eq⟩

end Names

/-- The capital of `petName` stands for the underscore of `pet_name`, but not for that of
`pet_Name`, which gets a second one. -/
example : snakeCase "petName" = "pet_name" ∧ snakeCase "pet_name" = "pet_name" ∧
    snakeCase "pet_Name" = "pet__name" := by
  decide

end Bindery.Text
