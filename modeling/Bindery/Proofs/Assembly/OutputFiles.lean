import Bindery.CommandLine.Plan
import Bindery.Proofs.Assembly.Run
import Bindery.Proofs.Layout.Containment

/-! The files that a package is written into.

Each key of a package names directories after segments of namespaces and a file after one, or
`__init__` (`exists_stem_of_mem_keys`), and nothing is checked about the segments. So the files of
a package are kept below every output exactly if its keys are contained, and, where no segment has
a slash, exactly if they are plain (`files_kept_iff`). A namespace that begins with two dots is
written beside the output (`files_not_kept_of_dots`). -/
namespace Bindery

open Files CommandLine

/-- Whatever has been placed was there before, or was put. -/
theorem Placement.Puts.mem_values {rule : Placement → Model → Bool → Prop} {p p' : Placement}
    {ms : List Model} (h : Puts rule p ms p') {m : Model} (hm : m ∈ Entries.values p'.models) :
    m ∈ Entries.values p.models ∨ m ∈ ms := by
  induction h with
  | nil => exact .inl hm
  | @put p p' placed rest update _ _ ih =>
    cases ih hm with
    | inr hrest => exact .inr (List.mem_cons_of_mem _ hrest)
    | inl hbefore =>
      obtain ⟨entry, hentry, rfl⟩ := List.mem_map.1 hbefore
      cases Entries.mem_of_mem_put hentry with
      | inl hnew => exact .inr (hnew ▸ List.mem_cons_self)
      | inr hold => exact .inl (List.mem_map_of_mem hold)
  | fallBack _ ih => exact ih hm

namespace Partition
variable {models : List Model} {key : UnitKey}

/-- Segments of namespaces name the directories and the file of a key, unless it is an init file. -/
theorem exists_stem_of_mem_keys (h : key ∈ Entries.keys (ofModels models)) :
    ∃ dirs stem, key = dirs ++ [stem ++ ".py"] ∧ (∀ s ∈ dirs, ∃ m ∈ models, s ∈ m.path) ∧
      (stem = "__init__" ∨ ∃ m ∈ models, stem ∈ m.path) := by
  have hsegments : ∀ path ∈ paths models, ∀ s ∈ path, ∃ m ∈ models, s ∈ m.path := by
    intro path hpath s hs
    obtain ⟨m, hm, rfl⟩ := List.mem_map.1 (mem_paths.1 hpath)
    exact ⟨m, hm, hs⟩
  have hfind := laid_ofModels models
  obtain ⟨⟨_, slot⟩, hentry, rfl⟩ := List.mem_map.1 h
  cases slot with
  | placeholder =>
    obtain ⟨below, hbelow, above, habove, rfl⟩ := exists_below_of_placeholder hentry
    have hpre := (mem_ancestors_iff_isPrefix.1 habove).1
    exact ⟨above, "__init__", rfl, fun s hs => hsegments below hbelow s (hpre.subset hs), .inl rfl⟩
  | planned plan =>
    have hlookup := (Entries.lookup_eq_some hfind.nodup_keys).2 hentry
    obtain ⟨path, hpath, _, rfl, rfl⟩ := (hfind.find?_eq_planned _ _).1 hlookup
    cases place_cases (paths models) path with
    | inl hinit => exact ⟨path, "__init__", hinit.2, hsegments path hpath, .inl rfl⟩
    | inr hleaf =>
      obtain ⟨parents, last, rfl, _, hplace⟩ := hleaf
      obtain ⟨hparents, hlast⟩ := List.forall_mem_append.1 (hsegments _ hpath)
      exact ⟨parents, last, hplace, hparents, .inr (hlast last (List.mem_singleton_self last))⟩

/-- A slash in a key comes from a namespace. -/
theorem not_mem_slash_of_mem_keys (hmodels : ∀ m ∈ models, ∀ s ∈ m.path, '/' ∉ s.toList)
    (h : key ∈ Entries.keys (ofModels models)) : ∀ part ∈ key, '/' ∉ part.toList := by
  have hsegment : ∀ s, (∃ m ∈ models, s ∈ m.path) → '/' ∉ s.toList := by
    rintro s ⟨m, hm, hs⟩
    exact hmodels m hm s hs
  obtain ⟨dirs, stem, rfl, hdirs, hstem⟩ := exists_stem_of_mem_keys h
  refine List.forall_mem_append.2 ⟨fun s hs => hsegment s (hdirs s hs),
    List.forall_mem_singleton.2 ?_⟩
  have hfree : '/' ∉ stem.toList := by
    obtain rfl | hstem := hstem
    · decide
    · exact hsegment stem hstem
  rw [String.toList_append, List.mem_append]
  exact not_or.2 ⟨hfree, by decide⟩

end Partition

open Bindery.Partition

section Packages
variable {ε : Type} {a : Assembler ε} {models : List Model} {stats : Stats}
  {units : Entries UnitKey GeneratedUnit}

theorem AssemblyOutput.ofUnits_eq_modules {units units' : Entries UnitKey GeneratedUnit}
    (h : ofUnits units = .modules units') : units = units' := by
  unfold ofUnits at h
  split at h
  · split at h
    · cases h
    · exact AssemblyOutput.modules.inj h
  · exact AssemblyOutput.modules.inj h

/-- The path of a unit is the output continued by its key. -/
theorem outputFiles_paths (output : String) (units : Entries UnitKey GeneratedUnit) :
    (outputFiles output (.modules units)).map Prod.fst =
      (Entries.keys units).map (joinAll output) := by
  rw [outputFiles, Entries.keys, List.map_map, List.map_map]
  rfl

/-- The keys of a package are those of a partition whose namespaces are those of given models. -/
theorem Assembler.exists_keys_eq (h : a.assemble models = .ok (stats, .modules units)) :
    ∃ sorted, Entries.keys units = Entries.keys (ofModels sorted) ∧
      ∀ m ∈ sorted, ∃ given ∈ models, m.path = given.path := by
  obtain ⟨placed, written, hsort, hassembles, hunits⟩ := assemble_eq_ok h
  obtain rfl := AssemblyOutput.ofUnits_eq_modules hunits.symm
  refine ⟨Entries.values placed.models, hassembles.keys_eq, fun m hm => ?_⟩
  obtain ⟨done, hputs, hperm⟩ := puts_of_sortModels hsort
  have hprepared : m ∈ a.prepared models :=
    hperm.mem_iff.1 ((hputs.mem_values hm).resolve_left List.not_mem_nil)
  obtain ⟨given, hgiven, hrefielded⟩ := exists_of_mem_right (a.prepared_refielded models) hprepared
  exact ⟨given, hgiven, hrefielded.path_eq⟩

/-- A run that gives a package with some keys. -/
theorem Assembler.exists_units (keys : List UnitKey)
    (h : (a.assemble models).toOption.bind (fun done => match done.2 with
      | .single _ => none
      | .modules units => some (Entries.keys units)) = some keys) :
    ∃ stats units, a.assemble models = .ok (stats, .modules units) ∧ Entries.keys units = keys := by
  obtain ⟨⟨stats, output⟩, hdone, hkeys⟩ := Option.bind_eq_some_iff.1 h
  cases output with
  | single text => cases hkeys
  | modules units =>
    refine ⟨stats, units, ?_, Option.some.inj hkeys⟩
    cases hrun : a.assemble models with
    | error cause =>
      rw [hrun] at hdone
      cases hdone
    | ok done =>
      rw [hrun] at hdone
      exact congrArg _ (Option.some.inj hdone)

/-- **The files of a package are kept below every output if and only if the keys of its units are
contained.** If no namespace has a slash in a segment, that is so if and only if no directory is
called by nothing, by one dot or by two, and no key begins another. -/
theorem Assembler.files_kept_iff (h : a.assemble models = .ok (stats, .modules units)) :
    (∀ output, (outputFiles output (.modules units)).map Prod.fst =
      (Entries.keys units).map (joinAll output)) ∧
    ((∀ home output, Kept home output (Entries.keys units)) ↔ Contained (Entries.keys units)) ∧
    ((∀ m ∈ models, ∀ s ∈ m.path, '/' ∉ s.toList) →
      ((∀ home output, Kept home output (Entries.keys units)) ↔ Plain (Entries.keys units))) := by
  refine ⟨fun output => outputFiles_paths output units, kept_iff_contained, fun hmodels => ?_⟩
  obtain ⟨sorted, hkeys, hpaths⟩ := exists_keys_eq h
  have hsorted : ∀ m ∈ sorted, ∀ s ∈ m.path, '/' ∉ s.toList := by
    intro m hm
    obtain ⟨given, hgiven, he⟩ := hpaths m hm
    rw [he]
    exact hmodels given hgiven
  have hfiles : ∀ key ∈ Entries.keys (ofModels sorted), ∃ dirs stem,
      key = dirs ++ [stem ++ ".py"] := by
    intro key hkey
    obtain ⟨dirs, stem, he, _⟩ := exists_stem_of_mem_keys hkey
    exact ⟨dirs, stem, he⟩
  rw [hkeys, kept_iff_contained]
  exact contained_iff_plain (fun _ hkey => not_mem_slash_of_mem_keys hsorted hkey) hfiles
    (laid_ofModels sorted).nodup_keys (guarded_ofModels sorted)

end Packages

/-- Pets in a namespace, dogs in one below it. -/
theorem files_kept_of_pets :
    let a : Assembler Empty := {}
    let models : List Model :=
      [{ name := "Pet", path := ["pets"] }, { name := "Dog", path := ["pets", "dogs"] }]
    ∃ stats units, a.assemble models = .ok (stats, .modules units) ∧
      (∀ m ∈ models, ∀ s ∈ m.path, '/' ∉ s.toList) ∧
      (outputFiles "out" (.modules units)).map Prod.fst =
        ["out/__init__.py", "out/pets/__init__.py", "out/pets/dogs.py"] ∧
      ∀ home output, Kept home output (Entries.keys units) := by
  intro a models
  obtain ⟨stats, units, hrun, hkeys⟩ := Assembler.exists_units (a := a)
    [["__init__.py"], ["pets", "__init__.py"], ["pets", "dogs.py"]]
    (show (a.assemble models).toOption.bind _ = _ by decide)
  have hslash : ∀ m ∈ models, ∀ s ∈ m.path, '/' ∉ s.toList := by decide
  obtain ⟨hpaths, _, hplain⟩ := Assembler.files_kept_iff hrun
  refine ⟨stats, units, hrun, hslash, ?_, (hplain hslash).2 ?_⟩
  · rw [hpaths, hkeys]
    decide
  · rw [hkeys]
    exact ⟨by decide, by decide⟩

/-- Two dots at the front of a namespace lead its file, and the init file of its directory, out of
the output. -/
theorem files_not_kept_of_dots :
    let a : Assembler Empty := {}
    let models : List Model := [{ name := "Note", path := ["..", "x"] }]
    ∃ stats units, a.assemble models = .ok (stats, .modules units) ∧
      "out/../x.py" ∈ (outputFiles "out" (.modules units)).map Prod.fst ∧
      destination ["home"] "out" = ["home", "out"] ∧
      destination ["home"] "out/../x.py" = ["home", "x.py"] ∧
      ¬ Kept ["home"] "out" (Entries.keys units) := by
  intro a models
  obtain ⟨stats, units, hrun, hkeys⟩ := Assembler.exists_units (a := a)
    [["__init__.py"], ["..", "__init__.py"], ["..", "x.py"]]
    (show (a.assemble models).toOption.bind _ = _ by decide)
  have hout : destination ["home"] "out" = ["home", "out"] := by decide
  have hfile : destination ["home"] "out/../x.py" = ["home", "x.py"] := by decide
  have hpath : joinAll "out" ["..", "x.py"] = "out/../x.py" := by decide
  have hmem : ["..", "x.py"] ∈ Entries.keys units := by
    rw [hkeys]
    decide
  refine ⟨stats, units, hrun, ?_, hout, hfile, fun hkept => ?_⟩
  · rw [outputFiles_paths, ← hpath]
    exact List.mem_map_of_mem hmem
  · obtain ⟨name, below, hinside⟩ := hkept.inside _ hmem
    rw [hpath, hfile, hout] at hinside
    exact absurd hinside (by simp)

end Bindery
