import Bindery.Assembly.Assemble
import Bindery.Formatter.Command
import Bindery.Proofs.Formatter.Octets
import Bindery.Proofs.Formatter.Shells
import Bindery.Proofs.Text.Words

/-! What comes of formatting.

A command line is a program and its arguments, whatever blanks are around them
(`FormatCommand.parse_eq_ok_iff`). A formatter is given a text from its front, so what it leaves is
an end of the text, be it a shell or not (`unread_runProgram_suffix`). Input is refused only if the
end that is left does not go into a pipe, and so no text of a few pages is ever refused
(`FormatCommand.format_ne_inputRefused`). A text that is copied comes out as it was
(`FormatCommand.format_cat`). -/
namespace Bindery.Formatter

/-! ### Command lines -/

namespace FormatCommand
variable {line : String}

/-- A command line has no command exactly if it has no words. -/
theorem parse_eq_error_iff {e : FormatError} :
    parse line = .error e ↔ e = .noCommand ∧ Text.Spaced [] line.toList := by
  rw [Text.spaced_iff, parse]
  split
  · next h => simp [h, eq_comm]
  · next h => simp [h]

/-- A command is the words of its line. -/
theorem parse_eq_ok_iff {c : FormatCommand} :
    parse line = .ok c ↔ Text.Spaced (c.program :: c.arguments) line.toList := by
  rw [Text.spaced_iff, parse]
  split
  · next h => simp [h]
  · next program arguments h =>
    obtain ⟨program', arguments'⟩ := c
    simp [h]

end FormatCommand

/-! ### What is left of a text -/

section Reading
variable {program name : String} {arguments : List String} {text : Octets}

/-- **What a formatter leaves is an end of what it was given**, be it a shell or not. -/
theorem unread_runProgram_suffix :
    (runProgram program name arguments text).unread <:+ text := by
  unfold runProgram
  split
  · exact Shell.unread_runShell_suffix name arguments text
  · next plain hplain => exact suffix_pending_of_lookup hplain _

/-- Whole pages that were read are out of the pipe. -/
theorem fitsPipe_append (front unread : Octets) (h : unread ≠ []) :
    fitsPipe (front ++ unread).length unread.length =
      decide (front.length % pageSize + unread.length ≤ pipePages * pageSize) := by
  have hunread : unread.length ≠ 0 := by simpa using h
  have hpages := Nat.mod_add_div' front.length pageSize
  have hleft : (front ++ unread).length - front.length / pageSize * pageSize =
      front.length % pageSize + unread.length := by
    rw [List.length_append]
    omega
  have hread : (front ++ unread).length - unread.length = front.length := by simp
  rw [fitsPipe, decide_eq_false hunread, Bool.false_or, hread, hleft]

theorem Run.text_eq_inputRefused_iff {run : Run} {length : Nat} :
    run.text program length = .error .inputRefused ↔
      run.status = 0 ∧ fitsPipe length run.unread.length = false := by
  unfold Run.text
  split
  · next hstatus => simp [hstatus]
  · next hstatus =>
    split
    · next hfits => simpa using ⟨by simpa using hstatus, by simpa using hfits⟩
    · next hfits => split <;> simpa using fun _ => by simpa using hfits

end Reading

namespace Run
variable {r : Run} {os : Octets}

@[simp] theorem status_say : (r.say os).status = r.status := by
  unfold say
  split <;> rfl

theorem on_output_say : (r.say os).on .output = r.on .output ++ os := by
  unfold say
  split
  · next hempty => simp [List.isEmpty_iff.1 hempty]
  · simp [on, List.filter_append, List.flatMap_append]

/-- A text that is said after all of the input was read is what comes of a run. -/
theorem text_eq_ok {program text : String} {length : Nat} (hstatus : r.status = 0)
    (hunread : r.unread = []) (houtput : r.on .output = octets text) :
    r.text program length = .ok text := by
  unfold Run.text
  rw [if_neg (by simpa using hstatus), hunread, houtput, bytesOf_octets, Text.text?_bytes]
  rfl

end Run

/-- A copy without arguments says what there is to read. -/
theorem cat_of_no_arguments {setting : Setting} {source : Source}
    (harguments : setting.arguments = []) (hinput : setting.input = .ok source)
    (houtput : setting.hasOutput = true) : cat setting = ({} : Run).say source.content := by
  have hread : Cat.options.read setting.arguments = ([], none) := by rw [harguments]; rfl
  have hnil : ∀ r : Run, r.say [] = r := fun _ => rfl
  unfold cat
  simp [hread, Cat.copyOperands, houtput, operandsOf, Cat.copyOperand, Setting.isInput, hinput,
    Setting.start, Setting.pending, Cat.Display.copy, hnil]

/-- A program is found by its name. -/
theorem program?_of_mem :
    ∀ name ∈ plainPrograms.map (·.1) ++ shellNames, program? name = some name := by
  decide

namespace FormatCommand
variable {c : FormatCommand} {text : String}

/-- Input is refused only if an end of it is left, and does not go into a pipe together with the
part of its first page that was read. -/
theorem exists_unread_of_format (h : c.format text = .error .inputRefused) :
    ∃ front unread, octets text = front ++ unread ∧ unread ≠ [] ∧
      pipePages * pageSize < front.length % pageSize + unread.length := by
  unfold format at h
  split at h
  · cases h
  · split at h
    · cases h
    · next program hprogram harguments =>
      obtain ⟨_, hfits⟩ := Run.text_eq_inputRefused_iff.1 h
      generalize hrun : runProgram program _ _ _ = run at hfits
      obtain ⟨front, hsplit⟩ : run.unread <:+ octets text := hrun ▸ unread_runProgram_suffix
      have hleft : run.unread ≠ [] := fun hnil => by simp [hnil, fitsPipe] at hfits
      rw [← hsplit, fitsPipe_append front run.unread hleft, decide_eq_false_iff_not] at hfits
      exact ⟨front, run.unread, hsplit.symm, hleft, Nat.lt_of_not_le hfits⟩

/-- **A text that goes into a pipe is not refused**, whatever is done with it. -/
theorem format_ne_inputRefused (h : (octets text).length ≤ pipePages * pageSize) :
    c.format text ≠ .error .inputRefused := by
  intro hrefused
  obtain ⟨front, unread, hsplit, _, hmore⟩ := exists_unread_of_format hrefused
  have hfront := Nat.mod_le front.length pageSize
  rw [hsplit, List.length_append] at h
  omega

/-- **A text that is copied comes out as it was.** -/
theorem format_cat (hprogram : program? (octetWord c.program) = some "cat")
    (harguments : c.arguments = []) : c.format text = .ok text := by
  have hlookup : plainPrograms.lookup "cat" = some cat := rfl
  unfold format
  simp only [hprogram, harguments, List.any_nil, Bool.false_eq_true, if_false, List.map_nil,
    runProgram, hlookup]
  rw [cat_of_no_arguments rfl rfl rfl]
  refine Run.text_eq_ok Run.status_say Run.unread_say ?_
  rw [Run.on_output_say]
  rfl

example : (FormatCommand.mk "cat" []).format text = .ok text := by
  refine format_cat ?_ rfl
  rw [octetWord_of_small (by simp [IsSmall])]
  exact program?_of_mem "cat" (by decide)

end FormatCommand

end Bindery.Formatter

/-! ### Assemblies -/

namespace Bindery.Assembler
variable {ε : Type} {a : Assembler ε}

theorem assembleUnit_of_formatText (h : ∀ text, a.formatText text = .ok text)
    (requireUpdate : List String) (stats : Stats) (plan : UnitPlan) :
    a.assembleUnit requireUpdate stats plan =
      { a with format := none }.assembleUnit requireUpdate stats plan := by
  have hnone : ∀ text, ({ a with format := none } : Assembler ε).formatText text = .ok text :=
    fun _ => rfl
  unfold assembleUnit
  simp only [h, hnone]
  rfl

theorem assembleSlots_of_formatText (h : ∀ text, a.formatText text = .ok text)
    (requireUpdate : List String) (stats : Stats) (slots : List (UnitKey × Slot)) :
    a.assembleSlots requireUpdate stats slots =
      { a with format := none }.assembleSlots requireUpdate stats slots := by
  induction slots generalizing stats with
  | nil => rfl
  | cons entry rest ih =>
    obtain ⟨key, slot⟩ := entry
    cases slot with
    | placeholder => simp only [assembleSlots, assembleSlot, ih]
    | planned plan => simp only [assembleSlots, assembleSlot, ih, assembleUnit_of_formatText h]

/-- A formatter that gives texts back changes nothing of a package. -/
theorem assemble_of_formatText (h : ∀ text, a.formatText text = .ok text) (models : List Model) :
    a.assemble models = { a with format := none }.assemble models := by
  unfold assemble
  simp only [assembleSlots_of_formatText h]

/-- **A package that is copied by its formatter is the package without one.** -/
theorem assemble_of_format_cat {a : Assembler Formatter.FormatError}
    {c : Formatter.FormatCommand}
    (hprogram : Formatter.program? (Formatter.octetWord c.program) = some "cat")
    (harguments : c.arguments = []) (hformat : a.format = some c.format) (models : List Model) :
    a.assemble models = { a with format := none }.assemble models := by
  refine assemble_of_formatText (fun text => ?_) models
  have hcopied : c.format text = .ok text :=
    Formatter.FormatCommand.format_cat hprogram harguments
  simp only [formatText, hformat, hcopied]

end Bindery.Assembler
