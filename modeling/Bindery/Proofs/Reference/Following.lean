import Mathlib.Data.List.Basic
import Mathlib.Data.List.TakeWhile
import Bindery.Proofs.Reference.Location

/-! Where an import leads.

An interpreter reads the source of an import from the left: one dot is the package at hand,
each further dot goes one package up, and the segments behind the dots go down again
(`follow?`). An import is computed the other way round, from where it should lead
(`RelativeImport.way`). From a module, for which the package at hand is the one that holds it,
the two agree unless the target lies below the module itself (`follow?_way`). -/
namespace Bindery

namespace Dotted

/-- Segments that a dotted name can be made of and cut into again. -/
def Proper (path : List String) : Prop := ∀ s ∈ path, s ≠ "" ∧ '.' ∉ s.toList

instance : DecidablePred Proper := fun path =>
  inferInstanceAs (Decidable (∀ s ∈ path, s ≠ "" ∧ '.' ∉ s.toList))

variable {path : List String}

theorem proper_nil : Proper [] := fun _ h => absurd h List.not_mem_nil

theorem Proper.append_right {front back : List String} (h : Proper (front ++ back)) :
    Proper back :=
  fun s hs => h s (List.mem_append_right _ hs)

/-- A dotted name does not begin with a dot. -/
theorem Proper.join_head (h : Proper path) :
    ∀ c ∈ (Text.join "." path).toList.head?, c ≠ '.' := by
  cases path with
  | nil => simp [Text.join]
  | cons segment rest =>
    obtain ⟨hne, hdot⟩ := h segment List.mem_cons_self
    have hchars : segment.toList ≠ [] := by simpa using hne
    obtain ⟨c, cs, hsegment⟩ := List.exists_cons_of_ne_nil hchars
    rw [Text.toList_join_cons, hsegment]
    rw [hsegment] at hdot
    simp only [List.cons_append, List.head?_cons, Option.mem_def, Option.some.injEq]
    rintro _ rfl rfl
    exact hdot List.mem_cons_self

theorem Proper.join_eq_empty (h : Proper path) : Text.join "." path = "" ↔ path = [] := by
  constructor
  · intro hempty
    cases path with
    | nil => rfl
    | cons segment rest =>
      have hchars := congrArg String.toList hempty
      rw [Text.toList_join_cons] at hchars
      simp only [String.toList_empty, List.append_eq_nil_iff, String.toList_eq_nil_iff] at hchars
      exact absurd hchars.1 (h segment List.mem_cons_self).1
  · rintro rfl
    rfl

theorem Proper.segments_join (h : Proper path) : segments (Text.join "." path) = path := by
  rw [segments]
  split
  · next hempty => exact (h.join_eq_empty.1 hempty).symm
  · next hne =>
    refine pieces_join (fun hnil => hne (h.join_eq_empty.2 hnil)) fun s hs => (h s hs).2

/-! ### From the left -/

/-- The place that the source of an import names to code in `package`: one dot is the package
itself, each further one the package above, and what follows leads down. None if there is no
dot, or more than there are packages. -/
def follow? (package : List String) (source : String) : Option (List String) :=
  let dots := (source.toList.takeWhile (· = '.')).length
  let below := String.ofList (source.toList.dropWhile (· = '.'))
  if dots = 0 ∨ package.length + 1 < dots then none
  else some (package.take (package.length + 1 - dots) ++ segments below)

theorem follow?_replicate {package : List String} {dots : Nat} (hdots : 0 < dots)
    (hup : dots ≤ package.length + 1) (h : Proper path) :
    follow? package (Text.replicate dots "." ++ Text.join "." path) =
      some (package.take (package.length + 1 - dots) ++ path) := by
  have hreplicate : (Text.replicate dots ".").toList = List.replicate dots '.' :=
    Text.toList_replicate dots '.'
  have hall : ∀ c ∈ List.replicate dots '.', decide (c = '.') = true := by simp
  have hhead : (Text.join "." path).toList.takeWhile (· = '.') = [] ∧
      (Text.join "." path).toList.dropWhile (· = '.') = (Text.join "." path).toList := by
    have hfirst := h.join_head
    cases hchars : (Text.join "." path).toList with
    | nil => simp
    | cons c rest =>
      have hc : c ≠ '.' := hfirst c (by rw [hchars]; rfl)
      simp [hc]
  have hnone : ¬ (dots = 0 ∨ package.length + 1 < dots) := by omega
  rw [follow?, String.toList_append, hreplicate, List.takeWhile_append_of_pos hall,
    List.dropWhile_append_of_pos hall, hhead.1, hhead.2]
  simp only [List.append_nil, List.length_replicate, if_neg hnone, String.ofList_toList,
    h.segments_join]

/-- A source that leads somewhere is dots and segments. -/
theorem exists_of_follow? {package place : List String} {source : String}
    (h : follow? package source = some place) :
    ∃ dots tail, source = Text.replicate dots "." ++ Text.join "." tail ∧ 0 < dots ∧
      dots ≤ package.length + 1 ∧ place = package.take (package.length + 1 - dots) ++ tail := by
  rw [follow?] at h
  simp only [Option.ite_none_left_eq_some, Option.some.injEq, not_or] at h
  obtain ⟨⟨hsome, hfew⟩, rfl⟩ := h
  refine ⟨_, _, ?_, by omega, by omega, rfl⟩
  have hdots : source.toList.takeWhile (· = '.') =
      List.replicate (source.toList.takeWhile (· = '.')).length '.' :=
    List.eq_replicate_iff.2 ⟨rfl, fun c hc => by simpa using List.mem_takeWhile_imp hc⟩
  have hreplicate : ∀ count, (Text.replicate count ".").toList = List.replicate count '.' :=
    fun count => Text.toList_replicate count '.'
  rw [← String.toList_inj, String.toList_append, hreplicate, ← hdots, join_segments,
    String.toList_ofList, List.takeWhile_append_dropWhile]

/-! ### The way to a namespace -/

/-- Two namespaces have their common part, and go on from there. -/
theorem exists_common (here there : List String) :
    ∃ shared up down, here = shared ++ up ∧ there = shared ++ down ∧
      common here there = shared.length := by
  induction here generalizing there with
  | nil => exact ⟨[], [], there, rfl, rfl, by simp [common]⟩
  | cons a here ih =>
    cases there with
    | nil => exact ⟨[], a :: here, [], rfl, rfl, by simp [common]⟩
    | cons b there =>
      by_cases hab : a = b
      · obtain ⟨shared, up, down, hhere, hthere, hcommon⟩ := ih there
        refine ⟨a :: shared, up, down, by rw [hhere]; rfl, by rw [hthere, hab]; rfl, ?_⟩
        rw [common, if_pos hab, hcommon, List.length_cons]
      · exact ⟨[], a :: here, b :: there, rfl, rfl, by rw [common, if_neg hab]; rfl⟩

end Dotted

namespace RelativeImport
open Dotted
variable {shared up down front : List String} {last : String}

/-- A namespace above is not imported; the model of it is. -/
theorem way_up (leaf : String) (h : common (shared ++ up) shared = shared.length) :
    way (shared ++ up) shared leaf = ⟨Text.replicate (max up.length 1) ".", leaf, true⟩ := by
  simp [way, h, Text.join]

/-- Any other namespace is imported, from what holds it. -/
theorem way_down (leaf : String)
    (h : common (shared ++ up) (shared ++ (front ++ [last])) = shared.length)
    (hproper : Proper (front ++ [last])) :
    way (shared ++ up) (shared ++ (front ++ [last])) leaf =
      ⟨Text.replicate (max up.length 1) "." ++ Text.join "." front, last, false⟩ := by
  have hlast : '.' ∉ last.toList := (hproper last (by simp)).2
  have hbelow : Text.join "." (front ++ [last]) ≠ "" := by simp [hproper.join_eq_empty]
  have hup : (shared ++ up).length - shared.length = up.length := by simp
  rw [way]
  simp only [h, List.drop_left, if_neg hbelow, hup]
  by_cases hfront : front = []
  · subst hfront
    simp [Text.join, Text.splitLast?_of_not_mem hlast]
  · have hsplit : Text.splitLast? '.' (Text.join "." front ++ "." ++ last) =
        some (Text.join "." front, last) := Text.splitLast?_append hlast
    rw [Text.join_concat hfront, hsplit]

/-- As many packages up as there are dots is where the way goes down. -/
theorem take_package (hup : up = [] → shared = []) :
    max up.length 1 ≤ (shared ++ up).dropLast.length + 1 ∧
      (shared ++ up).dropLast.take ((shared ++ up).dropLast.length + 1 - max up.length 1) =
        shared := by
  by_cases hempty : up = []
  · simp [hempty, hup hempty]
  · have hpos := List.length_pos_iff.2 hempty
    have hdots : max up.length 1 = up.length := by omega
    rw [List.dropLast_append_of_ne_nil hempty, List.length_append, List.length_dropLast, hdots]
    have hshared : shared.length + (up.length - 1) + 1 - up.length = shared.length := by omega
    rw [hshared]
    exact ⟨by omega, List.take_left⟩

/-- **The way leads to its end.** For a module of `here`, the source of an import leads to the
namespace that is meant if a model is imported, and to what holds this namespace if the
namespace is. Only to a namespace below the module itself it would not. -/
theorem follow?_way {here there : List String} (leaf : String) (hthere : Proper there)
    (hne : here ≠ there) (hbelow : here <+: there → here = []) :
    ∃ place, follow? here.dropLast (way here there leaf).source = some place ∧
      (((way here there leaf).member = true ∧ (way here there leaf).name = leaf ∧ place = there) ∨
        ((way here there leaf).member = false ∧
          place ++ [(way here there leaf).name] = there)) := by
  obtain ⟨shared, up, down, rfl, rfl, hcommon⟩ := exists_common here there
  have hup : up = [] → shared = [] := by
    rintro rfl
    rw [List.append_nil] at hbelow
    exact hbelow (List.prefix_append _ _)
  obtain ⟨hdots, htake⟩ := take_package hup
  have hpos : 0 < max up.length 1 := by omega
  cases List.eq_nil_or_concat' down with
  | inl hmember =>
    subst hmember
    have hfollow := follow?_replicate hpos hdots proper_nil
    rw [List.append_nil] at hcommon hne ⊢
    rw [htake, List.append_nil] at hfollow
    rw [way_up leaf hcommon]
    refine ⟨shared, ?_, .inl ⟨rfl, rfl, rfl⟩⟩
    simpa [Text.join] using hfollow
  | inr hmodule =>
    obtain ⟨front, last, rfl⟩ := hmodule
    have hproper := hthere.append_right
    have hfront : Proper front := fun s hs => hproper s (List.mem_append_left _ hs)
    have hfollow := follow?_replicate hpos hdots hfront
    rw [htake] at hfollow
    rw [way_down leaf hcommon hproper]
    exact ⟨shared ++ front, hfollow, .inr ⟨rfl, by simp⟩⟩

end RelativeImport

end Bindery
