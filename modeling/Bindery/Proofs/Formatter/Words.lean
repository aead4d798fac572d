import Bindery.Formatter.Shell.Redirect
import Bindery.Proofs.Formatter.Machine

/-! Words, options and redirections.

Whatever the commands of a substitution are, if running them advances then so does working out
expressions, words and redirections. The one thing to see to is what descriptors lead to: each leads
to what another one leads to, to a new pipe, or to a file that was opened for it. -/
namespace Bindery.Formatter.Shell

/-! ### Arithmetic -/

namespace Advances
variable {α : Type} {text : String}

theorem numberIn (name : String) : Advances (numberIn name) := by
  refine .bind .get fun _ => ?_
  dsimp only
  split
  · exact .pure _
  · exact .fail _

theorem failIn (fault : ExpressionFault) : Advances (failIn text fault : ShellM α) := .fail _

theorem value (passed : Bool) (e : Expression) : Advances (e.value text passed) := by
  induction e generalizing passed with
  | number n => exact .pure n
  | «variable» name => exact .ite (.pure 0) (.numberIn name)
  | unary op a ih =>
    refine (ih passed).bind fun n => ?_
    cases op <;> exact .pure _
  | binary op a b iha ihb =>
    refine (iha passed).bind fun m => (ihb passed).bind fun n => .ite (.pure 0) ?_
    split
    · exact .pure _
    · exact failIn _
  | and a b iha ihb => exact (iha passed).bind fun m => (ihb _).bind fun n => .pure _
  | or a b iha ihb => exact (iha passed).bind fun m => (ihb _).bind fun n => .pure _
  | choice test a b iht iha ihb =>
    exact (iht passed).bind fun t => (iha _).bind fun m => (ihb _).bind fun n => .pure _
  | assign name op a ih =>
    refine (ih passed).bind fun n => .ite (.pure n) ?_
    extract_lets assign
    have hassign : ∀ result, Advances (assign result) := fun _ =>
      .bind (.setVariable _ _) fun _ => .pure _
    cases op with
    | none => exact .bind (.pure n) hassign
    | some op =>
      refine .bind (.numberIn name) fun m => ?_
      split
      · exact .bind (.pure _) hassign
      · exact .bind (failIn _) hassign
  | broken fault => exact failIn fault
  | sequel a fault ih => exact (ih passed).bind fun _ => failIn fault

theorem workOut (text : String) : Advances (workOut text) := .value false _

end Advances

/-! ### Options -/

namespace Advances

theorem letters (table : LetterTable) (arguments : List String) :
    Advances (table.read arguments) := by
  unfold LetterTable.read
  split
  · exact .pure _
  · exact .fail _

theorem withoutOptions (arguments : List String) : Advances (withoutOptions arguments) :=
  .bind (.letters _ _) fun _ => .pure _

theorem turnLetter (on : Bool) (letter : Char) : Advances (turnLetter on letter) :=
  .doneUnless (.fail _) fun _ => .modify fun _ => ⟨rfl, rfl⟩

theorem turnName (starting on : Bool) (name? : Option String) :
    Advances (turnName starting on name?) := by
  cases name? with
  | none => exact .bind .get fun _ => .bind (.write _ _) fun _ => .pure _
  | some name =>
    unfold Shell.turnName
    dsimp only
    split
    · exact .fail _
    · exact .modify fun _ => ⟨rfl, rfl⟩
    · exact .pure _

theorem turnSwitches (starting : Bool) (n : Nat) (arguments : List String) :
    Advances (turnSwitches starting n arguments) := by
  induction n generalizing arguments with
  | zero => exact .pure _
  | succ n ih =>
    unfold Shell.turnSwitches
    split
    · exact .pure _
    · split
      · split
        · exact .ite (.bind (.modify fun _ => ⟨rfl, rfl⟩) fun _ => .pure _) (.pure _)
        · refine .ite (.pure _) (.bind (.foldlM ?_) ?_)
          · intro (isText, rest) letter
            dsimp only
            refine .ite (.pure _) (.ite (.pure _) (.ite ?_ ?_))
            · exact .bind (.turnName _ _ _) fun _ => .pure _
            · exact .bind (.turnLetter _ _) fun _ => .pure _
          · intro (isText, rest)
            exact .bind (ih rest) fun _ => .pure _
      · exact .pure _

end Advances

/-! ### Words -/

section Expansion
variable {run : Option Command → ShellM String}

namespace Advances

theorem notSet {α : Type} (name : String) : Advances (notSet name : ShellM α) := .fail _

theorem required (value? : Option String) (name : String) (isStrict : Bool) :
    Advances (match value? with
      | some value => Pure.pure value
      | none => if isStrict then Shell.notSet name else Pure.pure "" : ShellM String) := by
  cases value? with
  | some value => exact .pure value
  | none => exact .ite (.notSet name) (.pure "")

theorem expand (hrun : ∀ body, Advances (run body)) (full inUse : Bool) :
    (pieces : List Piece) → Advances (expand run full inUse pieces)
  | [] => by
    unfold Shell.expand
    exact .pure _
  | piece :: rest => by
    have hrest := expand hrun full inUse rest
    unfold Shell.expand
    extract_lets join
    have hjoin : ∀ bits, Advances (join bits) := fun bits => hrest.bind fun _ => .pure _
    have hgives : ∀ bits, Advances (Pure.pure bits >>= join) := fun bits =>
      .bind (.pure bits) hjoin
    cases piece with
    | char c quoted => exact hgives _
    | quotes => exact hgives _
    | command body quoted => exact .bind (hrun body) fun _ => hgives _
    | arithmetic expression quoted =>
      exact (expand hrun false false expression).bind fun _ => .bind (.workOut _) fun _ => hgives _
    | parameter name use quoted =>
      refine .bind .get fun s => ?_
      extract_lets value? required bitsOfValue
      have hrequired : Advances required := .required value? name _
      cases use with
      | bad => exact .bind (.fail _) hjoin
      | value => exact hrequired.bind fun _ => hgives _
      | length => exact hrequired.bind fun _ => hgives _
      | fallback kind emptyToo word =>
        have hword := expand hrun false false word
        dsimp only
        split
        · exact (expand hrun full (!quoted) word).bind hjoin
        · exact (expand hrun full (!quoted) word).bind hjoin
        · exact hgives _
        · exact hgives _
        · exact hgives _
        · exact hgives _
        · refine hword.bind fun _ => .doneUnless (.fail _) fun _ => ?_
          exact .bind (.setVariable _ _) fun _ => hgives _
        · exact .doneIf (.fail _) fun _ => hword.bind fun _ => .bind (.fail _) hjoin
      | trim atEnd longest pattern =>
        exact hrequired.bind fun _ => (expand hrun false false pattern).bind fun _ => hgives _
termination_by pieces => pieces

theorem expandText (hrun : ∀ body, Advances (run body)) (w : Word) :
    Advances (expandText run w) :=
  .bind .get fun _ => .bind (.expand hrun _ _ _) fun _ => .pure _

theorem expandPattern (hrun : ∀ body, Advances (run body)) (w : Word) :
    Advances (expandPattern run w) :=
  .bind .get fun _ => .bind (.expand hrun _ _ _) fun _ => .pure _

theorem expandFields (hrun : ∀ body, Advances (run body)) (w : Word) :
    Advances (expandFields run w) :=
  .bind .get fun _ => .bind (.expand hrun _ _ _) fun _ => .bind .get fun _ => .pure _

theorem expandValue (hrun : ∀ body, Advances (run body)) (w : Word) :
    Advances (expandValue run w) :=
  .bind .get fun _ => .bind (.expand hrun _ _ _) fun _ => .pure _

/-! ### Redirections -/

theorem expandRedirection (hrun : ∀ body, Advances (run body)) (r : Redirection) :
    Advances (expandRedirection run r) := by
  unfold Shell.expandRedirection
  split
  · refine .bind (.expandText hrun _) fun text => ?_
    split
    · exact .pure _
    · split
      · exact .ite (.pure _) (.fail _)
      · exact .fail _
  · exact .bind (.expandText hrun _) fun _ => .pure _
  · exact .bind .get fun _ => .bind (.expand hrun _ _ _) fun _ => .pure _

end Advances
end Expansion

section Redirects
variable {s : State}

theorem AdvancesFrom.connectOpen {descriptor : Nat} {toWrite : Bool} {path : String}
    {opened : Except Files.Fault (Stream × Machine)} (hs : s.Sound)
    (h : ∀ o, opened = .ok o → s.machine.Opens o) :
    AdvancesFrom s (connectOpen descriptor toWrite path opened) := by
  cases opened with
  | error fault => exact Advances.fail _ s hs
  | ok o =>
    obtain ⟨hlater, hhas⟩ := h o rfl
    have hgoes : Goes s { s with machine := o.2 } := .of_later hs hlater rfl
    exact .modify_bind hgoes (.connect hgoes.sound hhas)

/-- A redirection leads to what is there already, or to something that is opened for it. -/
theorem Advances.redirect (r : Redirect) : Advances (redirect r) := by
  intro s hs
  obtain ⟨descriptor, target⟩ := r
  cases target with
  | closed => exact Advances.close descriptor s hs
  | copy other =>
    show AdvancesFrom s (if other ≠ descriptor then _ else _)
    split
    · refine .get_bind ?_
      split
      · next hstream => exact .connect hs (hs.stream? hstream)
      · exact Advances.fail _ s hs
    · exact .refl hs
  | text os =>
    refine (Advances.newPipe os s hs).bind_of fun number s' hrun hgoes => ?_
    cases hrun
    exact .connect hgoes.sound (s.machine.has_addPipe os false)
  | path direction path =>
    refine .get_bind ?_
    dsimp only
    split
    · split
      · next hstream => exact .connect hs (hs.stream? hstream)
      · exact Advances.fail _ s hs
    · refine .connectOpen hs fun o ho => ?_
      split at ho
      · exact Machine.openToWrite_opens ho
      · exact Machine.openToRead_opens ho

/-- Descriptors may lead where they led when all of that was there. -/
theorem AdvancesFrom.reconnect {before : List (Nat × Option Stream)} (hs : s.Sound)
    (h : ∀ descriptor stream, (descriptor, some stream) ∈ before → s.machine.Has stream) :
    AdvancesFrom s (reconnect before) := by
  refine .forM hs fun (descriptor, stream?) hmem s' hgoes => ?_
  cases stream? with
  | none => exact Advances.close descriptor s' hgoes.sound
  | some stream =>
    have hhas := h descriptor stream (List.mem_reverse.1 hmem)
    exact .connect hgoes.sound (hhas.later hgoes.later)

theorem Advances.redirectAll (redirects : List Redirect) : Advances (redirectAll redirects) := by
  refine .block (.tryCatch (.bind (.forM .redirect) fun _ => .given _) fun leave => ?_)
  split
  · exact .given _
  · exact .atEnd (.throw _)

/-- Where descriptors led before some redirections is there as long as the shell is. -/
theorem State.Sound.has_streams {s s' : State} {redirects : List Redirect} (hs : s.Sound)
    (hgoes : Goes s s') {descriptor : Nat} {stream : Stream}
    (h : (descriptor, some stream) ∈ redirects.map fun r => (r.1, s.stream? r.1)) :
    s'.machine.Has stream := by
  obtain ⟨r, _, hr⟩ := List.mem_map.1 h
  obtain ⟨_, hstream⟩ := Prod.mk.inj hr
  exact (hs.stream? hstream).later hgoes.later

theorem Advances.whileRedirected {act : ShellM Unit} {redirects : List Redirect}
    (h : Advances act) : Advances (whileRedirected redirects act) := by
  intro s hs
  refine .get_bind (.tryFinally ?_ fun s' hgoes => ?_)
  · exact Advances.bind (.redirectAll redirects) (fun _ => .ite h (.pure _)) s hs
  · exact .reconnect hgoes.sound fun _ _ => hs.has_streams hgoes

end Redirects

end Bindery.Formatter.Shell
