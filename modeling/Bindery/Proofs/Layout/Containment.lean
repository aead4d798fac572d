import Mathlib.Algebra.Order.BigOperators.Group.List
import Mathlib.Algebra.Order.Group.Nat
import Bindery.Proofs.Files.Destinations
import Bindery.Proofs.Layout.Slots

/-! Where the files of a package lie.

The path of a unit is the output continued by the parts of its key. Three things are asked of the
files (`Kept`): each lies below the output, no two lie in one place, and none lies where the path
of another one goes through. Whether they do is decided by the keys alone (`kept_iff_contained`): an
absolute part starts anew at the root and two dots may lead above the output. Keys without a slash
that lie in packages are contained if and only if the directories in them have names that lead down
and none begins another one (`contained_iff_plain`). -/
namespace Bindery

open Files

namespace UnitKey

/-- The pieces of a unit's path behind the output, or behind the root if a part of the key is
absolute: the last such part starts anew. -/
def steps (key : UnitKey) : List String :=
  key.foldl (fun before part =>
    if isAbsolute part then Text.pieces '/' part else before ++ Text.pieces '/' part) []

def start (folder : Place) (key : UnitKey) : Place := if key.any isAbsolute then [] else folder

/-- A path goes through a folder on its way. -/
def Passes (folder : Place) (key : UnitKey) (place : Place) : Prop :=
  ∃ front piece rest, key.steps = front ++ piece :: rest ∧ walk (key.start folder) front = place

section Paths
variable {key : UnitKey} {part : String}

theorem steps_concat (key : UnitKey) (part : String) :
    steps (key ++ [part]) =
      if isAbsolute part then Text.pieces '/' part else key.steps ++ Text.pieces '/' part := by
  rw [steps, List.foldl_append]
  rfl

theorem start_concat (folder : Place) (key : UnitKey) (part : String) :
    start folder (key ++ [part]) = if isAbsolute part then [] else key.start folder := by
  rw [start, List.any_append, List.any_cons, List.any_nil, Bool.or_false]
  cases isAbsolute part with
  | true => rw [Bool.or_true, if_pos rfl, if_pos rfl]
  | false => rw [Bool.or_false, if_neg Bool.false_ne_true, start]

/-- **Where the path of a unit leads.** -/
theorem destination_joinAll (home : Place) (output : String) (key : UnitKey) :
    destination home (joinAll output key) =
      walk (key.start (destination home output)) key.steps := by
  induction key using List.reverseRecOn with
  | nil => rfl
  | append_singleton key part ih =>
    rw [joinAll_append, steps_concat, start_concat]
    show destination home (join (joinAll output key) part) = _
    cases hpart : isAbsolute part with
    | true => rw [join_of_isAbsolute hpart, destination_of_isAbsolute hpart, if_pos rfl, if_pos rfl]
    | false =>
      rw [destination_join hpart, ih, if_neg Bool.false_ne_true, if_neg Bool.false_ne_true,
        walk_append]

end Paths

end UnitKey

/-! ### Files that are kept -/

/-- The files of a package are kept: they lie below the output, each in a place of its own, and
none of them where the path of another one goes through. -/
structure Kept (home : Place) (output : String) (keys : List UnitKey) : Prop where
  inside : ∀ key ∈ keys, ∃ name below,
    destination home (joinAll output key) = destination home output ++ name :: below
  apart : (keys.map fun key => destination home (joinAll output key)).Nodup
  clear : ∀ key ∈ keys, ∀ other ∈ keys, key ≠ other →
    ¬ other.Passes (destination home output) (destination home (joinAll output key))

/-- Whatever a tree has at the path of a file that is kept, or would get there, lies below the
output. -/
theorem Kept.locate_inside {t : Tree} {output : String} {keys : List UnitKey} {key : UnitKey}
    {spot : Spot} (h : Kept t.home output keys) (hhome : t.HasHome) (hkey : key ∈ keys)
    (hspot : t.locate (joinAll output key) (Text.pieces '/' (joinAll output key)) = .ok spot) :
    ∃ name below, spot.place = destination t.home output ++ name :: below := by
  rw [Tree.place_of_locate hhome hspot]
  exact h.inside key hkey

/-- What is asked of the keys for that: no part is absolute, nothing leads above where it started,
and where it leads is a place below, that of no other key and not on its way. -/
structure Contained (keys : List UnitKey) : Prop where
  relative : ∀ key ∈ keys, key.any isAbsolute = false
  below : ∀ key ∈ keys, ∃ name rest, descend [] key.steps = some (name :: rest)
  apart : (keys.map fun key => descend [] key.steps).Nodup
  clear : ∀ key ∈ keys, ∀ other ∈ keys, key ≠ other → ∀ front piece rest,
    other.steps = front ++ piece :: rest → descend [] front ≠ descend [] key.steps

section Keeping
variable {keys : List UnitKey}

theorem descend_prefix {front back : List String} {place : Place}
    (h : descend [] (front ++ back) = some place) : ∃ there, descend [] front = some there := by
  rw [descend_append] at h
  obtain ⟨there, hthere, _⟩ := Option.bind_eq_some_iff.1 h
  exact ⟨there, hthere⟩

theorem walk_descend {folder place : Place} {pieces : List String}
    (h : descend [] pieces = some place) : walk folder pieces = folder ++ place := by
  have hwalk : walk (folder ++ []) pieces = folder ++ place := walk_of_descend h
  rwa [List.append_nil] at hwalk

/-- A key that nothing in it takes away from the output leads below it. -/
theorem destination_of_descend {key : UnitKey} {place : Place}
    (hrelative : key.any isAbsolute = false) (hdescend : descend [] key.steps = some place)
    (home : Place) (output : String) :
    destination home (joinAll output key) = destination home output ++ place := by
  rw [UnitKey.destination_joinAll, UnitKey.start, hrelative, if_neg Bool.false_ne_true,
    walk_descend hdescend]

/-- So do the folders that it passes on its way. -/
theorem passes_iff_of_descend {key : UnitKey} {place there : Place}
    (hrelative : key.any isAbsolute = false) (hdescend : descend [] key.steps = some place)
    (folder : Place) : key.Passes folder (folder ++ there) ↔
      ∃ front piece rest, key.steps = front ++ piece :: rest ∧ descend [] front = some there := by
  have hstart : key.start folder = folder := by
    rw [UnitKey.start, hrelative, if_neg Bool.false_ne_true]
  rw [UnitKey.Passes, hstart]
  constructor
  · rintro ⟨front, piece, rest, hsteps, hwalk⟩
    obtain ⟨passed, hpassed⟩ := descend_prefix (hsteps ▸ hdescend)
    rw [walk_descend hpassed] at hwalk
    exact ⟨front, piece, rest, hsteps, List.append_cancel_left hwalk ▸ hpassed⟩
  · rintro ⟨front, piece, rest, hsteps, hpassed⟩
    exact ⟨front, piece, rest, hsteps, walk_descend hpassed⟩

/-- **Files with contained keys are kept**, whatever the output. -/
theorem Contained.kept (h : Contained keys) (home : Place) (output : String) :
    Kept home output keys := by
  have hplace : ∀ key ∈ keys, ∃ place, descend [] key.steps = some place ∧
      destination home (joinAll output key) = destination home output ++ place := by
    intro key hkey
    obtain ⟨name, rest, hdescend⟩ := h.below key hkey
    exact ⟨_, hdescend, destination_of_descend (h.relative key hkey) hdescend home output⟩
  refine ⟨fun key hkey => ?_, ?_, fun key hkey other hother hne => ?_⟩
  · obtain ⟨name, rest, hdescend⟩ := h.below key hkey
    exact ⟨name, rest, destination_of_descend (h.relative key hkey) hdescend home output⟩
  · refine (h.apart.of_map _).map_on fun key hkey other hother hsame => ?_
    obtain ⟨place, hdescend, hlead⟩ := hplace key hkey
    obtain ⟨place', hdescend', hlead'⟩ := hplace other hother
    rw [hlead, hlead'] at hsame
    obtain rfl := List.append_cancel_left hsame
    exact List.inj_on_of_nodup_map h.apart hkey hother (hdescend.trans hdescend'.symm)
  · obtain ⟨place, hdescend, hlead⟩ := hplace key hkey
    obtain ⟨place', hdescend', _⟩ := hplace other hother
    rw [hlead, passes_iff_of_descend (h.relative other hother) hdescend']
    rintro ⟨front, piece, rest, hsteps, hpassed⟩
    exact h.clear key hkey other hother hne front piece rest hsteps (hpassed.trans hdescend.symm)

/-- What leads nowhere else, or up, is short. -/
theorem isName_of_length {piece : String} (h : 2 < piece.length) : IsName piece := by
  have hne : ∀ other : String, other.length ≤ 2 → piece ≠ other := by
    rintro other hle rfl
    exact absurd h (Nat.not_lt.2 hle)
  refine ⟨?_, hne ".." (by decide)⟩
  rw [isIdle, decide_eq_false (hne "" (by decide)), decide_eq_false (hne "." (by decide)),
    Bool.or_false]

theorem exists_new_name (names : List String) : ∃ name : String, '/' ∉ name.toList ∧
    IsName name ∧ name ∉ names := by
  -- longer than all of them together
  obtain ⟨name, hname⟩ : ∃ name : String,
      name.toList = List.replicate ((names.map String.length).sum + 3) 'x' :=
    ⟨String.ofList _, String.toList_ofList⟩
  have hlength : name.length = (names.map String.length).sum + 3 := by
    rw [← String.length_toList, hname, List.length_replicate]
  have hlong : 2 < name.length := by omega
  refine ⟨name, ?_, isName_of_length hlong, fun hmem => ?_⟩
  · rw [hname]
    exact fun h => absurd (List.eq_of_mem_replicate h) (by decide)
  · have hle : name.length ≤ (names.map String.length).sum :=
      List.single_le_sum (fun _ _ => Nat.zero_le _) _ (List.mem_map_of_mem hmem)
    omega

/-- What is kept below a folder with a new name leads nowhere else. -/
theorem descend_of_inside {key : UnitKey} {name : String} {below : Place}
    (hnew : name ∉ key.steps)
    (h : walk (key.start [name]) key.steps = name :: below) :
    key.any isAbsolute = false ∧ descend [] key.steps = some below := by
  have hmem : name ∈ walk (key.start [name]) key.steps := by
    rw [h]
    exact List.mem_cons_self
  have hrelative : key.any isAbsolute = false := by
    by_contra habsolute
    rw [UnitKey.start, if_pos (Bool.not_eq_false _ ▸ habsolute)] at hmem
    exact (mem_walk hmem).elim List.not_mem_nil hnew
  have hstart : key.start [name] = [name] := by
    rw [UnitKey.start, hrelative, if_neg Bool.false_ne_true]
  rw [hstart] at h hmem
  refine ⟨hrelative, ?_⟩
  cases hdescend : descend [] key.steps with
  | none => exact absurd hmem (not_mem_walk_of_descend hdescend List.not_mem_nil hnew)
  | some place =>
    rw [walk_descend hdescend] at h
    have hplace : [name] ++ place = [name] ++ below := h
    rw [List.append_cancel_left hplace]

/-- **Files that are kept below every output have contained keys.** -/
theorem contained_of_kept (h : ∀ home output, Kept home output keys) : Contained keys := by
  obtain ⟨name, hslash, hname, hnew⟩ := exists_new_name (keys.flatMap UnitKey.steps)
  have hfolder : destination [] name = [name] := by
    have hstart : (if isAbsolute name then [] else ([] : Place)) = [] := ite_self _
    rw [destination, hstart, Text.pieces_of_not_mem hslash]
    exact enter_name hname
  have hkept := h [] name
  have hplace : ∀ key ∈ keys, ∃ first rest, key.any isAbsolute = false ∧
      descend [] key.steps = some (first :: rest) ∧
      destination [] (joinAll name key) = destination [] name ++ first :: rest := by
    intro key hkey
    obtain ⟨first, rest, hinside⟩ := hkept.inside key hkey
    have hlead := hinside
    rw [UnitKey.destination_joinAll, hfolder] at hlead
    obtain ⟨hrelative, hdescend⟩ := descend_of_inside
      (fun hmem => hnew (List.mem_flatMap.2 ⟨key, hkey, hmem⟩)) hlead
    exact ⟨first, rest, hrelative, hdescend, hinside⟩
  refine ⟨fun key hkey => ?_, fun key hkey => ?_, ?_,
    fun key hkey other hother hne front piece rest hsteps hsame => ?_⟩
  · obtain ⟨_, _, hrelative, _, _⟩ := hplace key hkey
    exact hrelative
  · obtain ⟨first, rest, _, hdescend, _⟩ := hplace key hkey
    exact ⟨first, rest, hdescend⟩
  · refine (hkept.apart.of_map _).map_on fun key hkey other hother hsame => ?_
    obtain ⟨first, rest, _, hdescend, hlead⟩ := hplace key hkey
    obtain ⟨first', rest', _, hdescend', hlead'⟩ := hplace other hother
    rw [hdescend, hdescend'] at hsame
    have hlead : destination [] (joinAll name key) = destination [] (joinAll name other) := by
      rw [hlead, hlead', Option.some.inj hsame]
    exact List.inj_on_of_nodup_map hkept.apart hkey hother hlead
  · obtain ⟨first, below, _, hdescend, hlead⟩ := hplace key hkey
    obtain ⟨first', below', hrelative', hdescend', _⟩ := hplace other hother
    refine hkept.clear key hkey other hother hne ?_
    rw [hlead, passes_iff_of_descend hrelative' hdescend']
    exact ⟨front, piece, rest, hsteps, hsame.trans hdescend⟩

theorem kept_iff_contained : (∀ home output, Kept home output keys) ↔ Contained keys :=
  ⟨contained_of_kept, Contained.kept⟩

end Keeping

/-! ### Keys without a slash -/

/-- The directories in keys have names, and no key begins another one. -/
structure Plain (keys : List UnitKey) : Prop where
  named : ∀ key ∈ keys, ∀ folder ∈ key.dropLast, IsName folder
  apart : ∀ key ∈ keys, ∀ other ∈ keys, key <+: other → key = other

namespace UnitKey
variable {key : UnitKey}

theorem any_isAbsolute_eq_false (h : ∀ part ∈ key, '/' ∉ part.toList) :
    key.any isAbsolute = false := by
  refine List.any_eq_false.2 fun part hpart habsolute => h part hpart ?_
  exact List.mem_of_head? (of_decide_eq_true habsolute)

theorem steps_eq_self (h : ∀ part ∈ key, '/' ∉ part.toList) : key.steps = key := by
  induction key using List.reverseRecOn with
  | nil => rfl
  | append_singleton key part ih =>
    obtain ⟨hkey, hpart⟩ := List.forall_mem_append.1 h
    have hrelative := any_isAbsolute_eq_false hpart
    rw [List.any_cons, List.any_nil, Bool.or_false] at hrelative
    rw [steps_concat, hrelative, if_neg Bool.false_ne_true, ih hkey,
      Text.pieces_of_not_mem (hpart part (List.mem_singleton_self part))]

end UnitKey

section Plainness
variable {keys : List UnitKey}

/-- The file names of a package end as its files do. -/
theorem isName_of_file (stem : String) : IsName (stem ++ ".py") := by
  refine isName_of_length ?_
  rw [String.length_append]
  exact Nat.lt_add_left _ (by decide)

/-- What is no name, behind names, leads to where an init file further up lies, or above all. -/
theorem descend_init_of_not_isName {front : List String} {s : String}
    (hfront : ∀ folder ∈ front, IsName folder) (hs : ¬ IsName s) :
    descend [] (UnitKey.init (front ++ [s])) = none ∨
      ∃ above, above <+: front ∧
        descend [] (UnitKey.init (front ++ [s])) = descend [] (UnitKey.init above) := by
  have hstart : descend [] (UnitKey.init (front ++ [s])) = descend front [s, UnitKey.initFile] := by
    rw [UnitKey.init, List.append_assoc, List.singleton_append, descend_append,
      descend_names hfront]
    rfl
  have habove : ∃ above, above <+: front ∧ enter front s = above := by
    by_cases hidle : isIdle s = true
    · exact ⟨front, List.prefix_refl front, enter_idle hidle⟩
    · have hup : s = ".." := by
        by_contra hup
        exact hs ⟨Bool.eq_false_iff.2 hidle, hup⟩
      exact ⟨front.dropLast, List.dropLast_prefix front, hup ▸ enter_up⟩
  rw [hstart, descend]
  split
  · exact .inl rfl
  · obtain ⟨above, hpre, henter⟩ := habove
    refine .inr ⟨above, hpre, ?_⟩
    rw [henter, UnitKey.init, descend_append,
      descend_names fun folder hfolder => hfront folder (hpre.subset hfolder)]
    rfl

variable (hslash : ∀ key ∈ keys, ∀ part ∈ key, '/' ∉ part.toList)
include hslash

/-- In contained keys the directories have names: behind anything else an init file would have the
place of another init file. -/
theorem Contained.named (h : Contained keys) (hguarded : Partition.Guarded keys)
    {dirs : List String} {file : String} (hkey : dirs ++ [file] ∈ keys) :
    ∀ folder ∈ dirs, IsName folder := by
  have hinit : ∀ above, above <+: dirs → UnitKey.init above ∈ keys := by
    intro above hpre
    by_cases hself : UnitKey.init above = dirs ++ [file]
    · exact hself ▸ hkey
    · exact (hguarded dirs file hkey above hpre hself).subset List.mem_cons_self
  have hsteps : ∀ key ∈ keys, key.steps = key := fun key hkey =>
    UnitKey.steps_eq_self (hslash key hkey)
  have hrun : ∀ front, front <+: dirs → ∀ folder ∈ front, IsName folder := by
    intro front
    induction front using List.reverseRecOn with
    | nil => exact fun _ folder hfolder => absurd hfolder List.not_mem_nil
    | append_singleton front s ih =>
      intro hpre
      have hfront := ih ((List.prefix_append front [s]).trans hpre)
      refine List.forall_mem_append.2 ⟨hfront, List.forall_mem_singleton.2 ?_⟩
      by_contra hbad
      have hmem := hinit (front ++ [s]) hpre
      obtain ⟨name, rest, hbelow⟩ := h.below _ hmem
      rw [hsteps _ hmem] at hbelow
      cases descend_init_of_not_isName hfront hbad with
      | inl hnone =>
        rw [hnone] at hbelow
        cases hbelow
      | inr habove =>
        obtain ⟨above, hfrom, hsame⟩ := habove
        have hmem' := hinit above (hfrom.trans ((List.prefix_append front [s]).trans hpre))
        rw [← hsteps _ hmem, ← hsteps _ hmem'] at hsame
        have he := List.inj_on_of_nodup_map h.apart hmem hmem' hsame
        have hlength := hfrom.length_le
        rw [← Partition.init_inj.1 he, List.length_append, List.length_singleton] at hlength
        exact Nat.not_succ_le_self _ hlength
  exact hrun dirs (List.prefix_refl dirs)

variable (hfiles : ∀ key ∈ keys, ∃ dirs stem, key = dirs ++ [stem ++ ".py"])
include hfiles

theorem Plain.contained (h : Plain keys) (hnodup : keys.Nodup) : Contained keys := by
  have hsteps : ∀ key ∈ keys, key.steps = key := fun key hkey =>
    UnitKey.steps_eq_self (hslash key hkey)
  have hnames : ∀ key ∈ keys, ∀ part ∈ key, IsName part := by
    intro key hkey part hpart
    obtain ⟨dirs, stem, rfl⟩ := hfiles key hkey
    cases List.mem_append.1 hpart with
    | inl hfolder =>
      exact h.named _ hkey part (by rwa [List.dropLast_concat])
    | inr hfile =>
      rw [List.mem_singleton.1 hfile]
      exact isName_of_file stem
  have hdescend : ∀ key ∈ keys, descend [] key.steps = some key := by
    intro key hkey
    rw [hsteps key hkey]
    exact descend_names (hnames key hkey)
  refine ⟨fun key hkey => UnitKey.any_isAbsolute_eq_false (hslash key hkey), fun key hkey => ?_, ?_,
    fun key hkey other hother hne front piece rest hsplit hsame => ?_⟩
  · obtain ⟨dirs, stem, he⟩ := hfiles key hkey
    obtain ⟨name, below, hcons⟩ := List.exists_cons_of_ne_nil (he ▸ List.concat_ne_nil _ dirs)
    exact ⟨name, below, hcons ▸ hdescend key hkey⟩
  · refine hnodup.map_on fun key hkey other hother hsame => ?_
    rw [hdescend key hkey, hdescend other hother] at hsame
    exact Option.some.inj hsame
  · rw [hsteps other hother] at hsplit
    have hfront : descend [] front = some front := by
      refine descend_names fun part hpart => hnames other hother part ?_
      rw [hsplit]
      exact List.mem_append_left _ hpart
    rw [hfront, hdescend key hkey] at hsame
    cases hsame
    exact hne (h.apart key hkey other hother (hsplit ▸ List.prefix_append _ _))

theorem Contained.plain (h : Contained keys) (hguarded : Partition.Guarded keys) : Plain keys := by
  refine ⟨fun key hkey => ?_, fun key hkey other hother hpre => ?_⟩
  · obtain ⟨dirs, stem, rfl⟩ := hfiles key hkey
    rw [List.dropLast_concat]
    exact h.named hslash hguarded hkey
  · by_contra hne
    obtain ⟨rest, rfl⟩ := hpre
    cases rest with
    | nil => exact hne (List.append_nil key).symm
    | cons piece rest =>
      refine h.clear key hkey _ hother hne key piece rest
        (UnitKey.steps_eq_self (hslash _ hother)) ?_
      rw [UnitKey.steps_eq_self (hslash key hkey)]

theorem contained_iff_plain (hnodup : keys.Nodup) (hguarded : Partition.Guarded keys) :
    Contained keys ↔ Plain keys :=
  ⟨fun h => h.plain hslash hfiles hguarded, fun h => h.contained hslash hfiles hnodup⟩

end Plainness

end Bindery
