import Bindery.Formatter.Shell.Signalling
import Bindery.Proofs.Formatter.Words

/-! The shell's own commands.

None of them that does its work alone reaches what was given or written but by reading and writing:
they tell, they change variables, switches and traps, and one of them reads a line
(`Advances.readVariables`), which leaves an end of what there was to read
(`readLineChars_suffix`). -/
namespace Bindery.Formatter.Shell

namespace Advances

/-! ### Names -/

theorem remember (name path : String) : Advances (remember name path) :=
  .ite (.pure _) (.modify fun _ => ⟨rfl, rfl⟩)

theorem describe (sentence : Bool) (search? : Option String) (name : String) :
    Advances (describe sentence search? name) := by
  refine .bind .get fun s => .ite (.sayText _) ?_
  split
  · exact .sayText _
  · split
    · exact .sayText _
    · exact .sayText _
    · exact .sayText _
    · exact .bind (.remember _ _) fun _ => .sayText _
    · exact .ite (.bind (.write _ _) fun _ => .pure _) (.pure _)
    · exact .ite (.bind (.write _ _) fun _ => .pure _) (.pure _)

theorem tellMeanings (names : List String) : Advances (tellMeanings names) :=
  .bind (.mapM fun _ => .describe _ _ _) fun _ => .pure _

theorem tellFound (arguments : List String) : Advances (tellFound arguments) := by
  refine .bind (.letters _ _) fun (options, names) => ?_
  refine .ite (.bind (.modify fun _ => ⟨rfl, rfl⟩) fun _ => .pure _) ?_
  refine .bind .get fun s => .ite (.sayText _) ?_
  refine .bind (.mapM fun name => ?_) fun _ => .pure _
  split
  · exact .bind (.remember _ _) fun _ => .pure _
  · exact .pure _
  · exact .pure _
  · exact .bind (.complain _) fun _ => .pure _
  · exact .bind (.complain _) fun _ => .pure _

theorem tellAliases (arguments : List String) : Advances (tellAliases arguments) := by
  refine .ite (.bind .get fun _ => .sayText _) ?_
  refine .bind (.mapM fun argument => ?_) fun _ => .pure _
  dsimp only
  split
  · exact .bind (.modify fun _ => ⟨rfl, rfl⟩) fun _ => .pure _
  · refine .bind .get fun _ => ?_
    split
    · exact .sayText _
    · exact .bind (.write _ _) fun _ => .pure _

theorem forgetAliases (arguments : List String) : Advances (forgetAliases arguments) := by
  refine .bind (.letters _ _) fun (options, names) => ?_
  refine .ite (.bind (.modify fun _ => ⟨rfl, rfl⟩) fun _ => .pure _) ?_
  refine .bind (.mapM fun name => .bind .get fun _ => ?_) fun _ => .pure _
  exact .ite (.bind (.write _ _) fun _ => .pure _)
    (.bind (.modify fun _ => ⟨rfl, rfl⟩) fun _ => .pure _)

/-! ### Telling -/

theorem tellArguments (arguments : List String) : Advances (tellArguments arguments) := .say _

theorem tellByFormat (arguments : List String) : Advances (tellByFormat arguments) := by
  refine .bind (.withoutOptions _) fun arguments => ?_
  split
  · exact .fail _
  · refine .bind (.forM fun _ => .complain _) fun _ => ?_
    dsimp only
    split
    · exact .bind (.say _) fun _ => .pure _
    · exact .bind (.write _ _) fun _ => .fail _

theorem tellCondition (inBrackets : Bool) (arguments : List String) :
    Advances (tellCondition inBrackets arguments) := by
  refine .bind .get fun s => .doneIf (.fail _) fun _ => ?_
  dsimp only
  split
  · exact .pure _
  · exact .fail _

theorem tellFolder (arguments : List String) : Advances (tellFolder arguments) :=
  .bind (.letters _ _) fun _ => .bind .get fun _ => .sayText _

theorem tellTimes (arguments : List String) : Advances (tellTimes arguments) := .sayText _

theorem tellLimit (arguments : List String) : Advances (tellLimit arguments) := .sayText _

theorem tellMask (arguments : List String) : Advances (tellMask arguments) := by
  refine .bind (.letters _ _) fun (options, arguments) => .bind .get fun s => ?_
  dsimp only
  split
  · exact .sayText _
  · split
    · refine .doneUnless (.fail _) fun _ => ?_
      exact .bind (.modify fun _ => ⟨rfl, rfl⟩) fun _ => .pure _
    · split
      · exact .bind (.modify fun _ => ⟨rfl, rfl⟩) fun _ => .pure _
      · exact .bind (.fail _) fun _ => .pure _

/-! ### Variables -/

theorem markVariables (word : String) (isMarked : Variable → Bool) (mark : Variable → Variable)
    (arguments : List String) : Advances (markVariables word isMarked mark arguments) := by
  refine .bind (.letters _ _) fun (options, arguments) => .ite (.bind .get fun _ => .sayText _) ?_
  refine .bind (.forM fun argument => .bind .get fun s => ?_) fun _ => .pure _
  split
  · exact .modify fun _ => ⟨rfl, rfl⟩
  · exact .changeVariable _ _
  · exact .changeVariable _ _

theorem localVariables (arguments : List String) : Advances (localVariables arguments) := by
  refine .bind .get fun _ => .doneIf (.fail _) fun _ => ?_
  refine .bind (.forM fun argument => .doneUnless (.fail _) fun _ => ?_) fun _ => .pure _
  refine .bind (.modify fun _ => ⟨rfl, rfl⟩) fun _ => ?_
  split
  · exact .setVariable _ _
  · exact .pure _

theorem restoreVariable (name : String) (before : Option Variable) :
    Advances (restoreVariable name before) :=
  .modify fun _ => ⟨rfl, rfl⟩

theorem removeNames (arguments : List String) : Advances (removeNames arguments) := by
  refine .bind (.letters _ _) fun (options, names) => ?_
  refine .bind (.forM fun name => .ite (.modify fun _ => ⟨rfl, rfl⟩) ?_) fun _ => .pure _
  exact .bind (.changeVariable _ _) fun _ => .modify fun _ => ⟨rfl, rfl⟩

theorem setArguments (arguments : List String) : Advances (ShellM.setArguments arguments) :=
  .modify fun _ => ⟨rfl, rfl⟩

theorem setSwitches (arguments : List String) : Advances (setSwitches arguments) := by
  refine .ite (.bind .get fun _ => .sayText _) ?_
  refine .bind (.turnSwitches _ _ _) fun (_, isMarked, rest) => ?_
  exact .ite (.bind (.setArguments _) fun _ => .pure _) (.pure _)

theorem countArgument (text : String) : Advances (countArgument text) := by
  unfold Shell.countArgument
  split
  · exact .pure _
  · exact .fail _

theorem dropArguments (arguments : List String) : Advances (dropArguments arguments) := by
  refine .bind ?_ fun count => .bind .get fun s => .doneIf (.fail _) fun _ => ?_
  · cases arguments.head? with
    | none => exact .pure 1
    | some text => exact .countArgument text
  · exact .bind (.setArguments _) fun _ => .pure _

theorem takeOption (arguments : List String) : Advances (takeOption arguments) := by
  unfold Shell.takeOption
  split
  · refine .bind .get fun s => ?_
    extract_lets isOwn all isOver found take
    have htake : ∀ r, Advances (take r) := fun _ =>
      .bind (.setVariable _ _) fun _ => .bind (.setVariable _ _) fun _ =>
        .bind (.modify fun _ => ⟨rfl, rfl⟩) fun _ => .pure _
    split
    · exact .bind (.setVariable _ _) htake
    · refine .bind (.write _ _) fun _ => .bind (.modify fun _ => ⟨rfl, rfl⟩) htake
    · exact htake ()
  · exact .fail _

/-! ### Reading and moving -/

theorem changeFolder (arguments : List String) : Advances (changeFolder arguments) := by
  refine .bind (.letters _ _) fun (options, arguments) => .bind .get fun s => ?_
  refine .doneUnless (.fail _) fun _ => .bind (.changeVariable _ _) fun _ => ?_
  refine .bind (.changeVariable _ _) fun _ => .bind (.modify fun _ => ⟨rfl, rfl⟩) fun _ => ?_
  exact .ite (.sayText _) (.pure _)

end Advances

/-- What follows a line is an end of the text. -/
theorem readLineChars_suffix (plain : Bool) (before : List PatternChar) (text : Octets) :
    (readLineChars plain before text).2.1 <:+ text := by
  fun_induction readLineChars plain before text with
  | case1 => exact List.suffix_rfl
  | case2 before rest => exact List.suffix_cons _ _
  | case3 before rest ih => exact ih.trans (List.suffix_cons _ _)
  | case4 before c rest hplain ih => exact ih.trans (List.suffix_cons _ _)
  | case5 before rest hplain ih => exact ih.trans (List.suffix_append ['\\', '\n'] rest)
  | case6 before c rest hplain hline ih => exact ih.trans (List.suffix_append ['\\', c] rest)
  | case7 => exact List.nil_suffix
  | case8 before c rest _ _ _ _ ih => exact ih.trans (List.suffix_cons _ _)

theorem Advances.readVariables (arguments : List String) : Advances (readVariables arguments) := by
  refine .bind (.letters _ _) fun (options, names) => .doneIf (.fail _) fun _ => ?_
  intro s hs
  refine .get_bind ?_
  extract_lets source? assign
  have hassign : ∀ line, Advances (assign line) := fun _ =>
    .bind (.forM fun _ => .setVariable _ _) fun _ => .pure _
  cases hsource : source? with
  | none => exact Advances.bind (.pure _) hassign s hs
  | some found =>
    obtain ⟨stream, _, hread⟩ := Option.bind_eq_some_iff.1 hsource
    cases hreadable : s.machine.readable stream with
    | error fault => simp [hreadable] at hread
    | ok source =>
      simp only [hreadable, Option.some.injEq] at hread
      subst hread
      have hleft := Machine.suffix_given_of_readable hreadable
        (readLineChars_suffix (options.any fun x => decide (x.1 = 'r')) [] source.content)
      have hgoes : Goes s { s with machine := s.machine.leave _ _ } :=
        .of_later hs (Machine.later_leave hleft) rfl
      exact .modify_bind hgoes (Advances.bind (.pure _) hassign _ hgoes.sound)

/-! ### Signals -/

namespace Advances

theorem signalTo (process : Nat) (signal : Signal) : Advances (signalTo process signal) := by
  refine .bind .get fun s => .ite ?_ (.ite ?_ (.pure _))
  · split
    · exact .bind (.modify fun _ => ⟨rfl, rfl⟩) fun _ => .pure _
    · exact .doneUnless (.throw _) fun _ => .pure _
  · exact .doneUnless (.throw _) fun _ => .pure _

theorem tellSignals (arguments : List String) : Advances (tellSignals arguments) := by
  unfold Shell.tellSignals
  split
  · exact .sayText _
  · exact .bind (.countArgument _) fun n => .ite (.sayText _) (.fail _)

theorem sendSignals (arguments : List String) : Advances (sendSignals arguments) := by
  unfold Shell.sendSignals
  extract_lets first? send
  have hsend : ∀ choice, Advances (send choice) := by
    intro (signal?, lists, rest)
    refine .ite (.doneIf (.fail _) fun _ => .tellSignals _) ?_
    refine .doneIf (.fail _) fun _ => .bind (.mapM fun text => ?_) fun _ => .pure _
    refine .doneIf (.fail _) fun _ => .bind (.countArgument _) fun _ => ?_
    refine .bind (.signalTo _ _) fun _ => .ite (.pure _) ?_
    exact .bind (.complain _) fun _ => .pure _
  cases first? with
  | some signal => exact .bind (.pure _) hsend
  | none =>
    refine .bind (.letters _ _) fun (options, rest) => .bind (.foldlM ?_) fun _ => ?_
    · intro signal? (letter, value)
      refine .ite (.pure _) ?_
      split
      · exact .pure _
      · exact .fail _
    · exact .bind (.pure _) hsend

theorem prepareFor (action : String) (names : List String) :
    Advances (prepare.go action names) := by
  induction names with
  | nil => exact .pure _
  | cons name rest ih =>
    unfold prepare.go
    split
    · exact .bind (.write _ _) fun _ => .pure _
    · exact .bind (.modify fun _ => ⟨rfl, rfl⟩) fun _ => ih

theorem prepare (arguments : List String) : Advances (prepare arguments) :=
  .bind (.withoutOptions _) fun _ => .ite (.bind .get fun _ => .sayText _) (.prepareFor _ _)

theorem awaitProcesses (arguments : List String) : Advances (awaitProcesses arguments) := by
  refine .bind (.withoutOptions _) fun arguments => .foldlM fun _ text => ?_
  exact .doneIf (.fail _) fun _ => .bind (.countArgument _) fun _ => .bind .get fun _ => .pure _

theorem noJob (arguments : List String) : Advances (noJob arguments) := .fail _

end Advances

end Bindery.Formatter.Shell
