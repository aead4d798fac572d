import Bindery.Files.Tree

/-! Where paths lead.

In a tree without links the text of a path decides where it leads: a name leads down, two dots
lead up, and nothing leads up from the root (`destination`). Wherever the tree finds what a path
names, it is there (`Tree.place_of_locate`). A path continued by a part leads on from where it led,
unless the part is absolute (`destination_join`). Pieces that never lead above where they start lead
to the same names below any place (`walk_of_descend`). -/
namespace Bindery.Files

/-- Follow one piece of a path. -/
def enter (place : Place) (piece : String) : Place :=
  if isIdle piece then place
  else if piece = ".." then place.dropLast
  else place ++ [piece]

def IsName (piece : String) : Prop := isIdle piece = false ∧ piece ≠ ".."

instance (piece : String) : Decidable (IsName piece) := inferInstanceAs (Decidable (_ ∧ _))

/-- Follow pieces of a path. -/
def walk (place : Place) (pieces : List String) : Place := pieces.foldl enter place

/-- Where a path leads, if relative paths start at `home`. -/
def destination (home : Place) (path : String) : Place :=
  walk (if isAbsolute path then [] else home) (Text.pieces '/' path)

section Walking
variable {place : Place} {front back : List String} {piece : String}

theorem enter_idle (h : isIdle piece = true) : enter place piece = place := if_pos h

theorem enter_up : enter place ".." = place.dropLast := rfl

theorem enter_name (h : IsName piece) : enter place piece = place ++ [piece] := by
  rw [enter, h.1, if_neg Bool.false_ne_true, if_neg h.2]

theorem walk_append (place : Place) (front back : List String) :
    walk place (front ++ back) = walk (walk place front) back := List.foldl_append

theorem walk_cons (place : Place) (piece : String) (rest : List String) :
    walk place (piece :: rest) = walk (enter place piece) rest := rfl

/-- Nothing is met but where it started and the pieces. -/
theorem mem_enter {x : String} (h : x ∈ enter place piece) : x ∈ place ∨ x = piece := by
  unfold enter at h
  split at h
  · exact .inl h
  · split at h
    · exact .inl ((List.dropLast_sublist _).mem h)
    · exact (List.mem_append.1 h).imp_right List.mem_singleton.1

theorem mem_walk {x : String} {pieces : List String} (h : x ∈ walk place pieces) :
    x ∈ place ∨ x ∈ pieces := by
  induction pieces generalizing place with
  | nil => exact .inl h
  | cons piece rest ih =>
    cases ih h with
    | inl h =>
      refine (mem_enter h).imp_right ?_
      rintro rfl
      exact List.mem_cons_self
    | inr h => exact .inr (List.mem_cons_of_mem _ h)

end Walking

/-! ### Paths in a tree -/

theorem Way.place_follow {root : Item} {way : Way} {pieces : List String} {spot : Spot}
    (h : way.follow root pieces = .ok spot) : spot.place = walk way.place pieces := by
  induction pieces generalizing way with
  | nil =>
    cases h
    rfl
  | cons piece rest ih =>
    rw [follow] at h
    split at h
    · cases h
    split at h
    · cases h
    split at h
    · next hidle =>
      rw [ih h, walk_cons, enter_idle hidle]
    next hidle =>
    have hidle : isIdle piece = false := Bool.eq_false_iff.2 hidle
    split at h
    · next hup =>
      have htail : Way.place way.tail = way.place.dropLast := by
        rw [Way.place, Way.place, List.map_tail, List.dropLast_reverse]
      rw [ih h, htail, hup, walk_cons, enter_up]
    · next hup =>
      have hname : enter way.place piece = way.place ++ [piece] := enter_name ⟨hidle, hup⟩
      split at h
      · next item _ =>
        have hplace : Way.place ((piece, item) :: way) = way.place ++ [piece] := by
          rw [Way.place, List.map_cons, List.reverse_cons]
          rfl
        rw [ih h, hplace, walk_cons, hname]
      · split at h
        · next hrest =>
          cases h
          rw [List.isEmpty_iff.1 hrest, ← hname]
          rfl
        · cases h

def Tree.HasHome (t : Tree) : Prop := (Way.toPlace t.root t.home []).place = t.home

/-- **What a path names is where the path leads.** -/
theorem Tree.place_of_locate {t : Tree} (hhome : t.HasHome) {path : String} {spot : Spot}
    (h : t.locate path (Text.pieces '/' path) = .ok spot) :
    spot.place = destination t.home path := by
  unfold locate at h
  split at h
  · cases h
  split at h
  · cases h
  split at h
  · cases h
  have hstart : Way.place (if isAbsolute path then [] else Way.toPlace t.root t.home []) =
      if isAbsolute path then [] else t.home := by
    split
    · rfl
    · exact hhome
  rw [Way.place_follow h, hstart]
  rfl

/-! ### Continued paths -/

theorem destination_empty (home : Place) : destination home "" = home := rfl

theorem destination_of_isAbsolute {home : Place} {path : String} (h : isAbsolute path = true) :
    destination home path = walk [] (Text.pieces '/' path) := by
  rw [destination, if_pos h]

theorem destination_of_not_isAbsolute {home : Place} {path : String} (h : isAbsolute path = false) :
    destination home path = walk home (Text.pieces '/' path) := by
  rw [destination, h, if_neg Bool.false_ne_true]

theorem isAbsolute_append {base : String} (hne : base ≠ "") (part : String) :
    isAbsolute (base ++ part) = isAbsolute base := by
  rw [isAbsolute, isAbsolute, String.toList_append]
  cases hbase : base.toList with
  | nil => exact absurd (String.toList_inj.1 hbase) hne
  | cons c rest => rfl

/-- A slash at the end leads nowhere else. -/
theorem destination_append_slash {base : String} (hne : base ≠ "") (home : Place) :
    destination home (base ++ "/") = destination home base := by
  have hpieces : Text.pieces '/' (base ++ "/") = Text.pieces '/' base ++ [""] := by
    have happend := Text.pieces_append '/' base ""
    rwa [String.append_empty] at happend
  rw [destination, destination, isAbsolute_append hne, hpieces, walk_append]
  rfl

/-- What stands behind a slash goes on from where the path led. -/
theorem destination_append (home : Place) (front part : String) :
    destination home (front ++ "/" ++ part) =
      walk (destination home (front ++ "/")) (Text.pieces '/' part) := by
  have hne : front ++ "/" ≠ "" := by
    intro h
    have hlength := congrArg String.length h
    rw [String.length_append] at hlength
    exact absurd hlength (Nat.succ_ne_zero _)
  have hpieces := Text.pieces_append '/' front part
  have hend := Text.pieces_append '/' front ""
  rw [String.append_empty] at hend
  have hslash : String.singleton '/' = "/" := rfl
  rw [hslash] at hpieces hend
  rw [destination, destination, isAbsolute_append hne, hpieces, hend, walk_append, walk_append]
  rfl

/-- **A relative part goes on from where the path led.** -/
theorem destination_join {home : Place} {base part : String} (h : isAbsolute part = false) :
    destination home (join base part) = walk (destination home base) (Text.pieces '/' part) := by
  unfold join
  rw [h, if_neg Bool.false_ne_true]
  split
  · next hbase =>
    obtain rfl | hlast := hbase
    · rw [String.empty_append, destination_of_not_isAbsolute h, destination_empty]
    · obtain ⟨front, hfront⟩ := List.getLast?_eq_some_iff.1 hlast
      have hslash : base = String.ofList front ++ "/" := by
        apply String.toList_inj.1
        simpa using hfront
      rw [hslash, destination_append]
  · next hbase =>
    obtain ⟨hne, _⟩ := not_or.1 hbase
    rw [destination_append, destination_append_slash hne]

/-! ### Ways down -/

/-- Where pieces lead from a place below some folder; nowhere if they lead above it. -/
def descend : Place → List String → Option Place
  | place, [] => some place
  | place, piece :: rest =>
    if piece = ".." ∧ place = [] then none else descend (enter place piece) rest

section Descending
variable {base place place' : Place} {pieces front back : List String}

theorem descend_append (place : Place) (front back : List String) :
    descend place (front ++ back) = (descend place front).bind (descend · back) := by
  induction front generalizing place with
  | nil => rfl
  | cons piece rest ih =>
    rw [List.cons_append, descend, descend]
    split
    · rfl
    · exact ih _

theorem enter_append {piece : String} (h : ¬ (piece = ".." ∧ place = [])) :
    enter (base ++ place) piece = base ++ enter place piece := by
  unfold enter
  split
  · rfl
  · split
    · next hup =>
      exact List.dropLast_append_of_ne_nil fun hnil => h ⟨hup, hnil⟩
    · rw [List.append_assoc]

/-- **Ways down are the same below every folder.** -/
theorem walk_of_descend (h : descend place pieces = some place') :
    walk (base ++ place) pieces = base ++ place' := by
  induction pieces generalizing place with
  | nil =>
    cases h
    rfl
  | cons piece rest ih =>
    rw [descend] at h
    split at h
    · cases h
    · next hstay => rw [walk_cons, enter_append hstay, ih h]

/-- Once above the folder that it started in, no way leads back by a name that it does not have. -/
theorem not_mem_walk_of_descend {name : String} (h : descend place pieces = none)
    (hplace : name ∉ place) (hpieces : name ∉ pieces) : name ∉ walk (name :: place) pieces := by
  induction pieces generalizing place with
  | nil => cases h
  | cons piece rest ih =>
    obtain ⟨hpiece, hrest⟩ := not_or.1 (mt List.mem_cons.2 hpieces)
    rw [descend] at h
    split at h
    · next hup =>
      obtain ⟨rfl, rfl⟩ := hup
      have hstart : walk [name] (".." :: rest) = walk [] rest := rfl
      rw [hstart]
      exact fun hmem => (mem_walk hmem).elim List.not_mem_nil hrest
    · next hstay =>
      have henter : enter ([name] ++ place) piece = [name] ++ enter place piece :=
        enter_append hstay
      rw [walk_cons, ← List.singleton_append, henter]
      exact ih h (fun hmem => (mem_enter hmem).elim hplace hpiece) hrest

theorem descend_names (h : ∀ piece ∈ pieces, IsName piece) :
    descend place pieces = some (place ++ pieces) := by
  induction pieces generalizing place with
  | nil => rw [List.append_nil, descend]
  | cons piece rest ih =>
    obtain ⟨hname, hrest⟩ := List.forall_mem_cons.1 h
    rw [descend, if_neg fun hstay => hname.2 hstay.1, enter_name hname, ih hrest,
      List.append_assoc, List.singleton_append]

end Descending

end Bindery.Files
