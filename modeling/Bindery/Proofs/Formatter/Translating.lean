import Bindery.Proofs.Formatter.Exchanges
import Bindery.Proofs.Formatter.Formatting

/-! Texts in which characters are exchanged.

The program that exchanges characters says its filtered input, whatever is unclear about its sets
(`tr_of_sets`). Sets of small characters leave the bytes of all others alone, so a text that is sent
through an exchange comes back with its characters exchanged (`FormatCommand.format_tr`), and in
capitals if letters are exchanged for them (`FormatCommand.format_letters`). -/
namespace Bindery.Formatter

/-! ### Exchanges -/

namespace Tr
variable {sources targets : List Char} {c : Char}

theorem exchanged_of_not_mem (hc : c ∉ sources) : exchanged sources targets c = c := by
  have hnone : (sources.zip targets).reverse.lookup c = none := by
    refine List.lookup_eq_none_iff.2 fun p hp => ?_
    obtain ⟨hsource, _⟩ := List.of_mem_zip (List.mem_reverse.1 hp)
    exact bne_iff_ne.2 fun h => hc (h ▸ hsource)
  rw [exchanged, hnone]
  rfl

theorem exchanged_mem (sources targets : List Char) (c : Char) :
    exchanged sources targets c = c ∨ exchanged sources targets c ∈ targets := by
  rw [exchanged]
  cases hfound : (sources.zip targets).reverse.lookup c with
  | none => exact .inl rfl
  | some d =>
    obtain ⟨before, behind, hsplit, _⟩ := List.lookup_eq_some_iff.1 hfound
    have hmem : (c, d) ∈ sources.zip targets := List.mem_reverse.1 (by simp [hsplit])
    exact .inr (List.of_mem_zip hmem).2

theorem foldl_warn (setting : Setting) (run : Run) (warnings : List String) :
    ∃ said : List (Channel × Octets), (∀ s ∈ said, s.1 = .complaint) ∧
      warnings.foldl (fun run warning =>
        { setting.complain ("warning: " ++ warning) run with status := run.status }) run =
          { run with written := run.written ++ said } := by
  induction warnings generalizing run with
  | nil => exact ⟨[], by simp, by simp⟩
  | cons warning rest ih =>
    obtain ⟨said, hsaid, hrest⟩ :=
      ih { setting.complain ("warning: " ++ warning) run with status := run.status }
    refine ⟨(.complaint, (setting.line ("warning: " ++ warning)).toList) :: said,
      List.forall_mem_cons.2 ⟨rfl, hsaid⟩, ?_⟩
    rw [List.foldl_cons, hrest]
    simp [Setting.complain, Run.complain]

/-- What is unclear about sets is complained about, and nothing else happens. -/
theorem readSets_warned (setting : Setting) (run : Run) (operands : List String) :
    ∃ said : List (Channel × Octets), (∀ s ∈ said, s.1 = .complaint) ∧
      (readSets setting run operands).1 = { run with written := run.written ++ said } := by
  induction operands generalizing run with
  | nil => exact ⟨[], by simp, by simp [readSets]⟩
  | cons operand rest ih =>
    obtain ⟨said, hsaid, hwarned⟩ := foldl_warn setting run (unclearEscapes operand)
    unfold readSets
    dsimp only
    rw [hwarned]
    split
    · exact ⟨said, hsaid, rfl⟩
    · obtain ⟨more, hmore, hrest⟩ := ih { run with written := run.written ++ said }
      refine ⟨said ++ more, List.forall_mem_append.2 ⟨hsaid, hmore⟩, ?_⟩
      rw [hrest, List.append_assoc]

end Tr

/-- A program that exchanges characters says its filtered input, and may complain beside that. -/
theorem tr_of_sets (setting : Setting) {a b : String} {first second : CharSet} {source : Source}
    {fs : List Tr.Filter} (harguments : setting.arguments = [a, b])
    (hdash : a.toList.head? ≠ some '-') (hinput : setting.input = .ok source)
    (houtput : setting.hasOutput = true) (hfirst : CharSet.parse a = .ok first)
    (hsecond : CharSet.parse b = .ok second)
    (hfilters : Tr.filters {} first (some second) = .ok fs) :
    ∃ said : List (Channel × Octets), (∀ s ∈ said, s.1 = .complaint) ∧
      tr setting = Run.say (fs.foldl (fun text f => f.apply text) source.content)
        { written := said } := by
  have hread : Tr.options.read setting.arguments = ([.operand a, .operand b], none) := by
    rw [harguments]
    change Tr.options.readWithin (1 + 1) [a, b] = _
    rw [OptionTable.readWithin]
    split
    · next h => simp [h] at hdash
    · next h => simp [h] at hdash
    · next h => simp [h] at hdash
    · rfl
  obtain ⟨said, hsaid, hwarned⟩ := Tr.readSets_warned setting setting.start [a, b]
  have hsets : (Tr.readSets setting setting.start [a, b]).2 = .ok [first, second] := by
    simp only [Tr.readSets, hfirst, hsecond]
    rfl
  have hresult : Tr.readSets setting setting.start [a, b] =
      ({ setting.start with written := setting.start.written ++ said }, .ok [first, second]) :=
    Prod.ext hwarned hsets
  have hcount : Tr.countFault? {} [a, b] = none := rfl
  refine ⟨said, hsaid, ?_⟩
  unfold tr
  simp only [hread, List.foldl_cons, List.foldl_nil, operandsOf, List.filterMap_cons,
    List.filterMap_nil, hcount, hresult, List.headD_cons, List.getElem?_cons_succ,
    List.getElem?_cons_zero, hfilters, Tr.filterInput, hinput, Setting.finish, houtput,
    Bool.true_or, if_true]
  rfl

theorem small_of_mem_extended {first front : CharSet} {p : SetPart}
    (hplain : ∀ q ∈ front ++ [p], Tr.IsPlain q)
    (htargets : ∀ d ∈ Tr.spelled (CharSet.runs (front ++ [p])), IsSmall d) {d : Char}
    (hd : d ∈ Tr.spelled (Tr.extended {} first front p).runs) : IsSmall d := by
  rw [Tr.spelled_extended] at hd
  obtain hd | hd := List.mem_append.1 hd
  · exact htargets d hd
  · obtain ⟨before, hlast⟩ := Tr.spelled_append_singleton front (hplain p (by simp))
    rw [List.eq_of_mem_replicate hd]
    exact htargets _ (by simp [hlast])

namespace FormatCommand
variable {c : FormatCommand} {a b text : String} {first front : CharSet} {p : SetPart}

/-- **A text that is sent through an exchange comes back exchanged**, as long as the sets are of
small characters. -/
theorem format_tr (hprogram : program? (octetWord c.program) = some "tr")
    (harguments : c.arguments = [a, b]) (hnul : ∀ d ∈ c.arguments, '\x00' ∉ d.toList)
    (hdash : (octetWord a).toList.head? ≠ some '-')
    (hfirst : CharSet.parse (octetWord a) = .ok first) (hfillers : first.fillers = 0)
    (hsecond : CharSet.parse (octetWord b) = .ok (front ++ [p]))
    (hplain : ∀ q ∈ front ++ [p], Tr.IsPlain q)
    (hsources : ∀ d ∈ Tr.spelled first.runs, IsSmall d)
    (htargets : ∀ d ∈ Tr.spelled (CharSet.runs (front ++ [p])), IsSmall d) :
    c.format text = .ok (text.map (Tr.exchanged (Tr.spelled first.runs)
      (Tr.spelled (Tr.extended {} first front p).runs))) := by
  obtain ⟨f, hfilters, hf⟩ := Tr.filters_exchange {} rfl rfl rfl hfillers hplain
  generalize hexchange : Tr.exchanged (Tr.spelled first.runs)
    (Tr.spelled (Tr.extended {} first front p).runs) = exchange at hf ⊢
  have hother : ∀ d, ¬IsSmall d → exchange d = d := fun d hd =>
    hexchange ▸ Tr.exchanged_of_not_mem fun hmem => hd (hsources d hmem)
  have hsmall : ∀ d, IsSmall d → IsSmall (exchange d) := by
    intro d hd
    subst hexchange
    obtain hsame | hmem := Tr.exchanged_mem (Tr.spelled first.runs)
      (Tr.spelled (Tr.extended {} first front p).runs) d
    · rwa [hsame]
    · exact small_of_mem_extended hplain htargets hmem
  have hlookup : plainPrograms.lookup "tr" = some tr := rfl
  obtain ⟨said, hsaid, hrun⟩ := tr_of_sets
      { name := octetWord c.program, arguments := c.arguments.map octetWord
        input := .ok ⟨octets text, false⟩
        source := ({} : Shell.Machine).source ({} : Shell.Machine).tree.home }
    (by rw [harguments]; rfl) hdash rfl rfl hfirst hsecond hfilters
  have hunsaid : ({ written := said } : Run).on .output = [] := by
    have hnone : said.filter (·.1 = .output) = [] :=
      List.filter_eq_nil_iff.2 fun s hs => by simp [hsaid s hs]
    rw [Run.on, hnone, List.flatMap_nil]
  have hgiven : (c.arguments.any fun a => '\x00' ∈ a.toList) = false :=
    List.any_eq_false.2 fun d hd => by simpa using hnul d hd
  unfold format
  simp only [hprogram, hgiven, Bool.false_eq_true, if_false, runProgram, hlookup]
  rw [hrun]
  refine Run.text_eq_ok Run.status_say Run.unread_say ?_
  rw [Run.on_output_say, hunsaid, octets_map hsmall hother, List.nil_append]
  exact hf _ (areOctets_ofBytes _)

/-- Sent through an exchange of letters, a text comes back in capitals. -/
theorem format_letters (text : String) :
    (FormatCommand.mk "tr" ["a-z", "A-Z"]).format text = .ok text.toUpper := by
  have hletters : (Tr.spelled (CharSet.runs [.range 'a' 'z'])).map
      (Tr.exchanged (Tr.spelled (CharSet.runs [.range 'a' 'z']))
        (Tr.spelled (Tr.extended {} [.range 'a' 'z'] [] (.range 'A' 'Z')).runs)) =
      (Tr.spelled (CharSet.runs [.range 'a' 'z'])).map Char.toUpper := by rfl
  have hupper : Tr.exchanged (Tr.spelled (CharSet.runs [.range 'a' 'z']))
      (Tr.spelled (Tr.extended {} [.range 'a' 'z'] [] (.range 'A' 'Z')).runs) = Char.toUpper := by
    funext c
    by_cases hc : c ∈ Tr.spelled (CharSet.runs [.range 'a' 'z'])
    · exact List.map_inj_left.1 hletters c hc
    · have hcapital : c.toUpper = c :=
        dif_neg fun hletter => hc (Tr.mem_spelled_range hletter.1 hletter.2)
      rw [Tr.exchanged_of_not_mem hc, hcapital]
  have hsmall : ∀ first last : Char, IsSmall last →
      ∀ d ∈ Tr.spelled (CharSet.runs [.range first last]), IsSmall d := fun _ _ hlast _ hd =>
    Nat.lt_of_le_of_lt (Tr.toNat_le_of_mem_spelled_range hd) hlast
  have hname : program? (octetWord "tr") = some "tr" := by
    rw [octetWord_of_small (by simp [IsSmall])]
    exact program?_of_mem "tr" (by decide)
  have hsource : octetWord "a-z" = "a-z" := octetWord_of_small (by simp [IsSmall])
  have htarget : octetWord "A-Z" = "A-Z" := octetWord_of_small (by simp [IsSmall])
  have hfirst : CharSet.parse (octetWord "a-z") = .ok [.range 'a' 'z'] := by
    rw [hsource]
    rfl
  have hsecond : CharSet.parse (octetWord "A-Z") = .ok ([] ++ [.range 'A' 'Z']) := by
    rw [htarget]
    rfl
  rw [String.toUpper, ← hupper]
  exact format_tr hname rfl (by decide) (by rw [hsource]; decide) hfirst rfl hsecond
    (by simp [Tr.IsPlain]) (hsmall _ _ (by decide)) (hsmall _ _ (by decide))

end FormatCommand

end Bindery.Formatter
