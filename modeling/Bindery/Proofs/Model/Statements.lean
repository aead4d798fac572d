import Bindery.Model.Import

/-! What import statements show.

A plain import has a statement of its own, and imports from one module can share one
(`Imports.Shows`). The statements of a set show its imports, each of them once and in their order
(`Imports.shows_lines`). -/
namespace Bindery.Imports

/-- Statements, one on each line, and the imports that they name. -/
inductive Shows : List String → List Import → Prop where
  | nil : Shows [] []
  | plain {i : Import} {lines : List String} {imports : List Import} :
      i.source = none → Shows lines imports → Shows (("import " ++ i.nameText) :: lines) (i :: imports)
  | joint {source : String} {members : List Import} {lines : List String} {imports : List Import} :
      members ≠ [] → (∀ i ∈ members, i.source = some source) → Shows lines imports →
      Shows (("from " ++ source ++ " import " ++ Text.join ", " (members.map Import.nameText)) ::
        lines) (members ++ imports)

theorem Shows.ne_empty {lines : List String} {imports : List Import} (h : Shows lines imports) :
    "" ∉ lines := by
  induction h with
  | nil => exact List.not_mem_nil
  | plain _ _ ih =>
    refine List.not_mem_cons_of_ne_of_not_mem (fun hempty => ?_) ih
    exact absurd (congrArg String.toList hempty) (by simp)
  | joint _ _ _ ih =>
    refine List.not_mem_cons_of_ne_of_not_mem (fun hempty => ?_) ih
    exact absurd (congrArg String.toList hempty) (by simp)

/-! ### Groups -/

theorem flatMap_groups (imports : List Import) :
    (groups imports).flatMap Prod.snd = imports := by
  induction imports with
  | nil => rfl
  | cons i rest ih =>
    rw [groups]
    split
    · next source members others hgroups =>
      rw [hgroups, List.flatMap_cons] at ih
      split <;> simp [← ih]
    · next hgroups =>
      rw [hgroups] at ih
      simp [← ih]

theorem of_mem_groups {imports : List Import} {g : Option String × List Import}
    (h : g ∈ groups imports) : g.2 ≠ [] ∧ ∀ i ∈ g.2, i.source = g.1 := by
  induction imports generalizing g with
  | nil => cases h
  | cons i rest ih =>
    rw [groups] at h
    split at h
    · next source members others hgroups =>
      rw [hgroups] at ih
      split at h
      · next hsame =>
        rcases List.mem_cons.1 h with rfl | h
        · exact ⟨List.cons_ne_nil i members,
            List.forall_mem_cons.2 ⟨hsame, (ih List.mem_cons_self).2⟩⟩
        · exact ih (List.mem_cons_of_mem _ h)
      · rcases List.mem_cons.1 h with rfl | h
        · exact ⟨List.cons_ne_nil i [], List.forall_mem_singleton.2 rfl⟩
        · exact ih h
    · rw [List.mem_singleton] at h
      subst h
      exact ⟨List.cons_ne_nil i [], List.forall_mem_singleton.2 rfl⟩

/-- The statements of a group show its imports. -/
theorem Shows.statements_append {source : Option String} {members imports : List Import}
    {lines : List String} (hne : members ≠ []) (hsource : ∀ i ∈ members, i.source = source)
    (h : Shows lines imports) : Shows (statements source members ++ lines) (members ++ imports) := by
  cases source with
  | some source => exact .joint hne hsource h
  | none =>
    clear hne
    induction members with
    | nil => exact h
    | cons i rest ih =>
      obtain ⟨hi, hrest⟩ := List.forall_mem_cons.1 hsource
      exact .plain hi (ih hrest)

/-! ### Sets -/

def lines (imports : Imports) : List String :=
  (groups imports.toList).flatMap fun g => statements g.1 g.2

theorem text_eq_join (imports : Imports) : imports.text = Text.join "\n" imports.lines := rfl

/-- **The statements of a set show its imports.** -/
theorem shows_lines (imports : Imports) : Shows imports.lines imports.toList := by
  have hgroups : ∀ gs : List (Option String × List Import),
      (∀ g ∈ gs, g.2 ≠ [] ∧ ∀ i ∈ g.2, i.source = g.1) →
      Shows (gs.flatMap fun g => statements g.1 g.2) (gs.flatMap Prod.snd) := by
    intro gs h
    induction gs with
    | nil => exact .nil
    | cons g rest ih =>
      obtain ⟨⟨hne, hsource⟩, hrest⟩ := List.forall_mem_cons.1 h
      rw [List.flatMap_cons, List.flatMap_cons]
      exact (ih hrest).statements_append hne hsource
  have hshows := hgroups (groups imports.toList) fun g => of_mem_groups
  rwa [flatMap_groups] at hshows

end Bindery.Imports
