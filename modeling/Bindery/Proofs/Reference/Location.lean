import Bindery.Reference.Location

/-! How an import depends on the model that is meant.

An import is a function of two namespaces and the model's name (`relative?_append`). The
model's name has no part in where the import is from (`way_source`), and whatever is
imported has no dots in its name (`dot_not_mem_way_name`). -/
namespace Bindery

namespace Dotted

theorem join_segments (name : String) : Text.join "." (segments name) = name := by
  rw [segments]
  split
  · next hempty => exact hempty.symm
  · exact Text.join_pieces '.' name

theorem segments_inj {a b : String} : segments a = segments b ↔ a = b := by
  refine ⟨fun h => ?_, fun h => h ▸ rfl⟩
  rw [← join_segments a, h, join_segments]

theorem split_append {home leaf : String} (h : '.' ∉ leaf.toList) :
    split (home ++ "." ++ leaf) = (home, leaf) := by
  have hs : Text.splitLast? '.' (home ++ "." ++ leaf) = some (home, leaf) :=
    Text.splitLast?_append h
  rw [split, hs, Option.getD_some]

theorem pieces_join {path : List String} (hne : path ≠ [])
    (h : ∀ s ∈ path, '.' ∉ s.toList) : Text.pieces '.' (Text.join "." path) = path :=
  Text.pieces_join hne h

theorem before_append {front : String} (h : '.' ∉ front.toList) (rest : String) :
    Text.before "." (front ++ "." ++ rest) = front :=
  @Text.before_append '.' front h rest

theorem before_of_not_mem {name : String} (h : '.' ∉ name.toList) : Text.before "." name = name :=
  @Text.before_of_not_mem '.' name h

end Dotted

namespace RelativeImport

/-- The import of the model `leaf` of the namespace `there` as seen from `here`, both by
their segments. -/
def way (here there : List String) (leaf : String) : RelativeImport :=
  let common := Dotted.common here there
  let dots := Text.replicate (max (here.length - common) 1) "."
  let below := Text.join "." (there.drop common)
  if below = "" then ⟨dots, leaf, true⟩
  else
    match Text.splitLast? '.' below with
    | some (extra, last) => ⟨dots ++ extra, last, false⟩
    | none => ⟨dots, below, false⟩

theorem way_source (here there : List String) (leaf leaf' : String) :
    (way here there leaf).source = (way here there leaf').source := by
  simp only [way]
  split
  · rfl
  · split <;> rfl

theorem dot_not_mem_way_name {here there : List String} {leaf : String} (h : '.' ∉ leaf.toList) :
    '.' ∉ (way here there leaf).name.toList := by
  simp only [way]
  split
  · exact h
  · split
    · next hs => exact Text.not_mem_of_splitLast? hs
    · next hs => exact Text.not_mem_of_splitLast?_eq_none hs

end RelativeImport

open RelativeImport

theorem relative?_eq (current reference : String) :
    relative? current reference =
      if Dotted.segments current = Dotted.segments (Dotted.split reference).1 then none
      else some (way (Dotted.segments current) (Dotted.segments (Dotted.split reference).1)
        (Dotted.split reference).2) := by
  simp only [relative?, way]
  split
  · rfl
  · split
    · rfl
    · split <;> simp_all

/-- The import of a model by its namespace and its name. -/
theorem relative?_append {current home leaf : String} (h : '.' ∉ leaf.toList) :
    relative? current (home ++ "." ++ leaf) =
      if current = home then none
      else some (way (Dotted.segments current) (Dotted.segments home) leaf) := by
  simp only [relative?_eq, Dotted.split_append h, Dotted.segments_inj]

theorem relative?_source (current home : String) {leaf leaf' : String}
    (h : '.' ∉ leaf.toList) (h' : '.' ∉ leaf'.toList) :
    (relative? current (home ++ "." ++ leaf)).map source =
      (relative? current (home ++ "." ++ leaf')).map source := by
  simp only [relative?_append h, relative?_append h']
  split
  · rfl
  · simp only [Option.map_some, way_source _ _ leaf leaf']

theorem relativeFromPackage?_source (current home : String) {leaf leaf' : String}
    (h : '.' ∉ leaf.toList) (h' : '.' ∉ leaf'.toList) :
    (relativeFromPackage? current (home ++ "." ++ leaf)).map source =
      (relativeFromPackage? current (home ++ "." ++ leaf')).map source := by
  have hnone : (relative? current (home ++ "." ++ leaf)).isNone =
      (relative? current (home ++ "." ++ leaf')).isNone := by
    simpa using congrArg Option.isNone (relative?_source current home h h')
  rw [relativeFromPackage?, relativeFromPackage?, hnone]
  split
  · rfl
  · exact relative?_source _ home h h'

end Bindery
