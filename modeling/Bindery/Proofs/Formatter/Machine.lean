import Bindery.Data.Outcomes
import Bindery.Proofs.Formatter.Advancing

/-! What the machine does for a shell.

Writing adds to what was written, reading takes from the front of what was given, and opening gives
a number that was not there (`later_write`, `later_leave`, `openToRead_opens`). So the acts by
which a shell reaches its machine advance, and so do its complaints. -/
namespace Bindery.Formatter.Shell

namespace Machine
variable {m m' : Machine} {stream : Stream}

theorem later_write (m : Machine) (os : Octets) (stream : Stream) :
    Later m (m.write os stream) := by
  have hrefl := Later.refl m
  cases stream with
  | output => exact { hrefl with output := List.suffix_cons os m.output }
  | complaint => exact { hrefl with complaints := List.suffix_cons os m.complaints }
  | pipe number writes =>
    cases writes with
    | true => exact { hrefl with pipes := Nat.le_of_eq Array.size_modify.symm }
    | false => exact hrefl
  | file number =>
    rw [write]
    split
    · exact hrefl
    · exact { hrefl with files := by simp }
  | given | folder | sink => exact hrefl

/-- Some of what could be read is left. -/
theorem later_leave {unread : Octets} (h : stream = .given → unread <:+ m.given) :
    Later m (m.leave unread stream) := by
  have hrefl := Later.refl m
  cases stream with
  | given => exact { hrefl with given := h rfl }
  | pipe number writes =>
    cases writes with
    | true => exact hrefl
    | false => exact { hrefl with pipes := by simp [leave] }
  | file number => exact { hrefl with files := Nat.le_of_eq Array.size_modify.symm }
  | output | complaint | folder | sink => exact hrefl

/-- What is left of something that can be read is left of what was given, if it was that. -/
theorem suffix_given_of_readable {unread : Octets} {source : Source}
    (hread : m.readable stream = .ok source) (h : unread <:+ source.content) :
    stream = .given → unread <:+ m.given := by
  rintro rfl
  rw [readable, Except.ok.injEq] at hread
  subst hread
  exact h

theorem later_addPipe (m : Machine) (text : Octets) : Later m (m.addPipe text).2 :=
  { Later.refl m with pipes := by simp [addPipe] }

theorem has_addPipe (m : Machine) (text : Octets) (writes : Bool) :
    (m.addPipe text).2.Has (.pipe (m.addPipe text).1 writes) := by
  simp [addPipe, Has]

/-! ### Files -/

/-- A file was opened, or something else that needs no opening: the machine goes on, and there is
what the stream stands for. -/
def Opens (m : Machine) (opened : Stream × Machine) : Prop :=
  Later m opened.2 ∧ opened.2.Has opened.1

theorem opens_openFile (m : Machine) (file : OpenFile) : m.Opens (m.openFile file) := by
  refine ⟨{ Later.refl m with files := ?_ }, ?_⟩
  · simp [openFile]
  · simp [openFile, Has]

/-- Files are opened in the same way, whatever lies in the tree. -/
theorem opens_openFile_of_tree (m : Machine) (tree : Files.Tree) (file : OpenFile) :
    m.Opens ({ m with tree }.openFile file) := by
  obtain ⟨hlater, hhas⟩ := opens_openFile { m with tree } file
  exact ⟨⟨hlater.given, hlater.output, hlater.complaints, hlater.pipes, hlater.files,
    hlater.lastProcess⟩, hhas⟩

theorem openToRead_opens {folder : Files.Place} {path : String} {opened : Stream × Machine}
    (h : m.openToRead folder path = .ok opened) : m.Opens opened := by
  obtain ⟨⟨place, item⟩, _, h⟩ := Bindery.Except.bind_eq_ok h
  split at h
  · cases h
    exact opens_openFile m _
  · cases h
    exact ⟨.refl m, trivial⟩
  · cases h
    exact ⟨.refl m, trivial⟩
  · cases h

theorem openToWrite_opens {folder : Files.Place} {path : String} {writing : Writing}
    {opened : Stream × Machine} (h : m.openToWrite folder path writing = .ok opened) :
    m.Opens opened := by
  obtain ⟨⟨place, item⟩, _, h⟩ := Bindery.Except.bind_eq_ok h
  split at h
  · cases h
  · cases h
    exact ⟨.refl m, trivial⟩
  · split at h
    · cases h
    · cases h
      exact opens_openFile_of_tree m _ _
    · cases h
      exact opens_openFile m _
    · cases h
      exact opens_openFile m _
  · split at h
    · cases h
    · cases h
      exact opens_openFile_of_tree m _ _

end Machine

/-! ### Streams -/

namespace Advances
variable {α : Type} {act : ShellM α}

theorem setStatus (status : Nat) : Advances (ShellM.setStatus status) :=
  .modify fun _ => ⟨rfl, rfl⟩

/-- The machine is out of the state for a moment only. -/
theorem writeTo (stream? : Option Stream) (os : Octets) : Advances (ShellM.writeTo stream? os) := by
  refine .ite (.pure true) ?_
  cases stream? with
  | none => exact .pure false
  | some stream =>
    intro s hs
    refine .get_bind ?_
    split
    · exact .refl hs
    · exact Goes.of_later hs (s.machine.later_write os stream) rfl

theorem write (descriptor : Nat) (os : Octets) : Advances (ShellM.write descriptor os) :=
  .bind .get fun _ => .writeTo _ _

theorem complain (text : String) : Advances (ShellM.complain text) :=
  .bind .get fun _ => .bind (.write _ _) fun _ => .pure _

theorem fail (text : String) : Advances (ShellM.fail text : ShellM α) :=
  .bind (.complain _) fun _ => .bind (.setStatus _) fun _ => .throw _

theorem say (os : Octets) : Advances (ShellM.say os) := by
  refine .bind (.write _ _) fun _ => .ite (.pure 0) ?_
  exact .bind .get fun _ => .bind (.complain _) fun _ => .pure 1

theorem sayText (text : String) : Advances (ShellM.sayText text) := .say _

/-! ### Variables -/

theorem changeVariable (name : String) (change : Variable → Variable) :
    Advances (ShellM.changeVariable name change) := by
  refine .doneUnless (.fail _) fun _ => .bind .get fun _ => ?_
  exact .doneIf (.fail _) fun _ => .modify fun _ => ⟨rfl, rfl⟩

theorem setVariable (name value : String) : Advances (ShellM.setVariable name value) := by
  refine .bind .get fun _ => .bind (.changeVariable _ _) fun _ => ?_
  exact .ite (.modify fun _ => ⟨rfl, rfl⟩) (.pure _)

theorem speaking (name : String) (h : Advances act) : Advances (ShellM.speaking name act) := by
  refine .bind .get fun _ => .bind (.modify fun _ => ⟨rfl, rfl⟩) fun _ => ?_
  exact h.tryFinally (.modify fun _ => ⟨rfl, rfl⟩)

end Advances

/-! ### Descriptors -/

theorem Advances.newPipe (text : Octets) : Advances (ShellM.newPipe text) :=
  fun s hs => .of_later hs (s.machine.later_addPipe text) rfl

theorem Advances.close (descriptor : Nat) : Advances (ShellM.close descriptor) := fun _ hs =>
  ⟨.refl _, fun d hd => hs d (List.mem_filter.1 hd).1⟩

/-- A descriptor may lead to whatever is there. -/
theorem AdvancesFrom.connect {s : State} {descriptor : Nat} {stream : Stream} (hs : s.Sound)
    (h : s.machine.Has stream) : AdvancesFrom s (ShellM.connect descriptor stream) := by
  refine ⟨.refl _, fun d hd => ?_⟩
  cases hd with
  | head => exact h
  | tail _ hd => exact hs d (List.mem_filter.1 hd).1

end Bindery.Formatter.Shell
