import Bindery.Proofs.Reference.Topmost

/-! Imports lead where they should.

The source of an import is dots and segments, to be read from some package: one dot is this
package, each further one goes one package up, and the segments go down again. An import that
locates a model (`Locates`) leads to the model's namespace, or to what holds it. A module reads its
imports from the package that holds it (`relative?_locates`), the init module of a package from the
package itself. The latter's are computed for a module in the package; what the two have in common
with another namespace is the same, so only the dots are different
(`relativeFromPackage?_locates`). -/
namespace Bindery

namespace Dotted
variable {here there : List String} {last : String}

/-- What lies above has all in common. -/
theorem common_of_isPrefix (h : there <+: here) : common here there = there.length := by
  obtain ⟨up, rfl⟩ := h
  induction there with
  | nil => cases up <;> rfl
  | cons segment rest ih => rw [List.cons_append, common, if_pos rfl, ih, List.length_cons]

theorem length_le_common_iff : there.length ≤ common here there ↔ there <+: here := by
  constructor
  · intro hlength
    obtain ⟨shared, up, down, rfl, rfl, hcommon⟩ := exists_common here there
    obtain rfl : down = [] := by
      rw [hcommon, List.length_append] at hlength
      exact List.length_eq_zero_iff.1 (by omega)
    rw [List.append_nil]
    exact List.prefix_append shared up
  · exact fun habove => (common_of_isPrefix habove).ge

/-- A further segment that the other does not have adds nothing in common. -/
theorem common_concat (h : last ∉ there) : common (here ++ [last]) there = common here there := by
  induction here generalizing there with
  | nil =>
    cases there with
    | nil => rfl
    | cons b rest =>
      have hne : last ≠ b := fun he => h (he ▸ List.mem_cons_self)
      simp [common, hne]
  | cons a here ih =>
    cases there with
    | nil => rfl
    | cons b rest =>
      have hrest : last ∉ rest := fun hmem => h (List.mem_cons_of_mem b hmem)
      simp only [List.cons_append, common, ih hrest]

end Dotted

namespace RelativeImport
open Dotted
variable {here here' there : List String} {m : Model}

/-- A model is imported exactly from a namespace above. -/
theorem way_member_iff (leaf : String) (hthere : Proper there) :
    (way here there leaf).member = true ↔ there <+: here := by
  have hproper : Proper (there.drop (common here there)) :=
    fun s hs => hthere s (List.mem_of_mem_drop hs)
  have hbelow : Text.join "." (there.drop (common here there)) = "" ↔ there <+: here := by
    rw [hproper.join_eq_empty, List.drop_eq_nil_iff, length_le_common_iff]
  rw [← hbelow]
  simp only [way]
  split
  · next hempty => exact iff_of_true rfl hempty
  · next hsome =>
    split <;> exact iff_of_false Bool.false_ne_true hsome

/-- What is imported depends on what is in common. -/
theorem way_congr (leaf : String) (h : common here there = common here' there) :
    (way here there leaf).name = (way here' there leaf).name ∧
      (way here there leaf).member = (way here' there leaf).member := by
  simp only [way, h]
  split
  · exact ⟨rfl, rfl⟩
  · split <;> exact ⟨rfl, rfl⟩

/-- An import that is read from a package locates a model. Its source is some dots and the segments
`tail`, and a reader follows it: up one package for each dot but the first, never above the topmost,
and down the segments. Where this leads, the imported name is that of the model's namespace, or this
is the namespace and the imported name is the model's. -/
structure Locates (i : RelativeImport) (package : List String) (dots : Nat) (tail : List String)
    (m : Model) : Prop where
  source : i.source = Text.replicate dots "." ++ Text.join "." tail
  proper : Proper tail
  dots_pos : 0 < dots
  dots_le : dots ≤ package.length + 1
  follows : follow? package i.source = some (package.take (package.length + 1 - dots) ++ tail)
  home : i.member = false →
    package.take (package.length + 1 - dots) ++ tail ++ [i.name] = m.path
  model : i.member = true →
    package.take (package.length + 1 - dots) ++ tail = m.path ∧ i.name = m.name

/-- From inside a namespace, the way to another one locates its models, unless it lies below. -/
theorem exists_locates_way (hhome : Proper m.path) (hne : here ≠ m.path)
    (hbelow : here <+: m.path → here = []) :
    ∃ dots tail, (way here m.path m.name).Locates here.dropLast dots tail m := by
  obtain ⟨place, hfollow, hplace⟩ := follow?_way m.name hhome hne hbelow
  obtain ⟨dots, tail, hsource, hpos, hle, rfl⟩ := exists_of_follow? hfollow
  rcases hplace with ⟨hmember, hname, hpath⟩ | ⟨hmember, hpath⟩
  · have hproper : Proper tail := (hpath ▸ hhome).append_right
    exact ⟨dots, tail, hsource, hproper, hpos, hle, hfollow, by simp [hmember],
      fun _ => ⟨hpath, hname⟩⟩
  · have hproper : Proper tail := fun s hs => hhome s (hpath ▸ by simp [hs])
    exact ⟨dots, tail, hsource, hproper, hpos, hle, hfollow, fun _ => hpath, by simp [hmember]⟩

end RelativeImport

open Dotted RelativeImport
variable {path : List String} {m : Model}

theorem relative?_eq_none_iff (hpath : Proper path) (hhome : Proper m.path)
    (hname : '.' ∉ m.name.toList) :
    relative? (Text.join "." path) m.qualifiedName = none ↔ m.path = path := by
  rw [relative?_of_proper hpath hhome hname]
  simp [eq_comm]

/-- **A module's imports lead to the models that are meant.** Take a module with a dotted name, or
the root package, and a model that does not live in a namespace below this module. Nothing is
imported if and only if the model lives in the module. Else the import, read from the package that
holds the module, or from the root package, locates the model, with at most as many dots as the
module has segments, or one; and the model itself is imported if and only if it lives in a namespace
above. -/
theorem relative?_locates (hpath : Proper path) (hhome : Proper m.path)
    (hname : '.' ∉ m.name.toList) (hbelow : path ≠ [] → path <+: m.path → m.path = path) :
    (relative? (Text.join "." path) m.qualifiedName = none ↔ m.path = path) ∧
      (m.path ≠ path → ∃ i dots tail,
        relative? (Text.join "." path) m.qualifiedName = some i ∧
        i.Locates path.dropLast dots tail m ∧ dots ≤ max 1 path.length ∧
        (i.member = true ↔ m.path <+: path ∧ m.path ≠ path)) := by
  refine ⟨relative?_eq_none_iff hpath hhome hname, fun hne => ?_⟩
  have hlead : path <+: m.path → path = [] := by
    intro hpre
    by_contra hsome
    exact hne (hbelow hsome hpre)
  obtain ⟨dots, tail, hlocates⟩ := exists_locates_way hhome hne.symm hlead
  have hdots := hlocates.dots_le
  rw [List.length_dropLast] at hdots
  refine ⟨_, dots, tail, ?_, hlocates, by omega, ?_⟩
  · rw [relative?_of_proper hpath hhome hname, if_neg hne.symm]
  · rw [way_member_iff m.name hhome, and_iff_left hne]

/-- From `a.b.c` a namespace beside its package is reached by two dots. -/
theorem relative?_locates_beside :
    let path := ["a", "b", "c"]
    let m : Model := { name := "Y", path := ["a", "x", "d"] }
    Proper path ∧ Proper m.path ∧ '.' ∉ m.name.toList ∧
      (path ≠ [] → path <+: m.path → m.path = path) ∧
      relative? "a.b.c" "a.x.d.Y" = some ⟨"..x", "d", false⟩ ∧
      ∃ dots tail, (⟨"..x", "d", false⟩ : RelativeImport).Locates ["a", "b"] dots tail m := by
  intro path m
  have hpath : Proper path := by decide
  have hhome : Proper m.path := by decide
  have hname : '.' ∉ m.name.toList := by decide
  have hbelow : path ≠ [] → path <+: m.path → m.path = path := by decide
  have himport : relative? "a.b.c" "a.x.d.Y" = some ⟨"..x", "d", false⟩ := by decide
  obtain ⟨_, hlocates⟩ := relative?_locates hpath hhome hname hbelow
  obtain ⟨i, dots, tail, hi, hlocates, _⟩ := hlocates (by decide)
  obtain rfl : i = ⟨"..x", "d", false⟩ := Option.some.inj (hi.symm.trans himport)
  exact ⟨hpath, hhome, hname, hbelow, himport, dots, tail, hlocates⟩

/-- **A package's imports lead to the models that are meant, by the names that modules import.**
Take a package and a model of a namespace without `__init__` in it. From the init module of the
package nothing is imported if and only if nothing is from a module of the package's name, which is
if the model lives in the package. Else both import the same name, of a namespace or of a model, and
the import of the init module, read from the package itself, locates the model. -/
theorem relativeFromPackage?_locates (hpath : Proper path) (hhome : Proper m.path)
    (hname : '.' ∉ m.name.toList) (hinit : initSegment ∉ m.path) :
    (relativeFromPackage? (Text.join "." path) m.qualifiedName = none ↔
      relative? (Text.join "." path) m.qualifiedName = none) ∧
      (relative? (Text.join "." path) m.qualifiedName = none ↔ m.path = path) ∧
      (m.path ≠ path → ∃ i j dots tail,
        relative? (Text.join "." path) m.qualifiedName = some i ∧
        relativeFromPackage? (Text.join "." path) m.qualifiedName = some j ∧
        j.name = i.name ∧ j.member = i.member ∧ j.Locates path dots tail m) := by
  have hinside : path ++ [initSegment] ≠ m.path := fun he => hinit (he ▸ by simp)
  have hlead : path ++ [initSegment] <+: m.path → path ++ [initSegment] = [] := fun hpre =>
    absurd (hpre.subset (by simp)) hinit
  have hpackage : m.path ≠ path →
      relativeFromPackage? (Text.join "." path) m.qualifiedName =
        some (.way (path ++ [initSegment]) m.path m.name) := fun hne => by
    rw [relativeFromPackage?_qualifiedName hpath hhome hname hne.symm, if_neg hinside]
  have hnone := relative?_eq_none_iff hpath hhome hname
  refine ⟨⟨fun h => hnone.2 ?_, fun h => ?_⟩, hnone, fun hne => ?_⟩
  · by_contra hne
    rw [hpackage hne] at h
    cases h
  · rw [relativeFromPackage?, h]
    rfl
  · obtain ⟨dots, tail, hlocates⟩ := exists_locates_way hhome hinside hlead
    rw [List.dropLast_concat] at hlocates
    have hcommon : common (path ++ [initSegment]) m.path = common path m.path :=
      common_concat hinit
    obtain ⟨hsame, hmember⟩ := way_congr m.name hcommon
    refine ⟨_, _, dots, tail, ?_, hpackage hne, hsame, hmember, hlocates⟩
    rw [relative?_of_proper hpath hhome hname, if_neg hne.symm]

/-- From inside `a.b` the namespace `a.d` is one package further up than from a module. -/
theorem relativeFromPackage?_locates_beside :
    let path := ["a", "b"]
    let m : Model := { name := "X", path := ["a", "d"] }
    Proper path ∧ Proper m.path ∧ '.' ∉ m.name.toList ∧ initSegment ∉ m.path ∧
      relative? "a.b" "a.d.X" = some ⟨".", "d", false⟩ ∧
      relativeFromPackage? "a.b" "a.d.X" = some ⟨"..", "d", false⟩ ∧
      ∃ dots tail, (⟨"..", "d", false⟩ : RelativeImport).Locates path dots tail m := by
  intro path m
  have hpath : Proper path := by decide
  have hhome : Proper m.path := by decide
  have hname : '.' ∉ m.name.toList := by decide
  have hinit : initSegment ∉ m.path := by decide
  have himport : relativeFromPackage? "a.b" "a.d.X" = some ⟨"..", "d", false⟩ := by decide
  obtain ⟨_, _, hlocates⟩ := relativeFromPackage?_locates hpath hhome hname hinit
  obtain ⟨_, j, dots, tail, _, hj, _, _, hlocates⟩ := hlocates (by decide)
  obtain rfl : j = ⟨"..", "d", false⟩ := Option.some.inj (hj.symm.trans himport)
  exact ⟨hpath, hhome, hname, hinit, by decide, himport, dots, tail, hlocates⟩

end Bindery
