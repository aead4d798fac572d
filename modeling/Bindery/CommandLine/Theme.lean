import Bindery.Text.Pieces

/-! Colors of the progress texts.

Each piece of a message has a role, and a theme has a color for each role. A style is a
theme, or none: then a piece is put between the same marks without its color being set. -/
namespace Bindery.CommandLine

/-- When there are colors. -/
inductive ColorMode where
  | always
  | automatic
  | never
deriving DecidableEq, Repr, Inhabited

def ColorMode.ofText? : String → Option ColorMode
  | "always" => some .always
  | "auto" => some .automatic
  | "never" => some .never
  | _ => none

/-- The background that colors are chosen for. -/
inductive Theme where
  | dark
  | light
deriving DecidableEq, Repr, Inhabited

/-- How the theme is chosen. -/
inductive ThemeMode where
  | fixed (theme : Theme)
  | automatic
deriving DecidableEq, Repr, Inhabited

def ThemeMode.ofText? : String → Option ThemeMode
  | "dark" => some (.fixed .dark)
  | "light" => some (.fixed .light)
  | "auto" => some .automatic
  | _ => none

/-- A number of eight bits in decimal digits, behind a plus sign or not. -/
def byteNumber? (text : String) : Option Nat :=
  let digits := match text.toList with
    | '+' :: rest => rest
    | cs => cs
  if digits.isEmpty then none
  else do
    let n ← digits.foldlM (fun n c =>
      if '0' ≤ c ∧ c ≤ '9' then some (n * 10 + (c.toNat - '0'.toNat)) else none) 0
    if n < 256 then some n else none

/-- The theme for what a terminal says about its colors. The text ends with the number of
the background; from eight on it is a light one. -/
def Theme.ofTerminal (colors : Option String) : Theme :=
  let background := do byteNumber? (← (Text.pieces ';' (← colors)).getLast?)
  if 8 ≤ background.getD 0 then .light else .dark

/-- What a piece of a message is. -/
inductive Role where
  | timestamp
  | primary
  | accent
  | info
  | success
  | label
  | value
deriving DecidableEq, Repr, Inhabited

/-- Red, green and blue. -/
structure Color where
  red : UInt8
  green : UInt8
  blue : UInt8
deriving DecidableEq, Repr, Inhabited

def Theme.color : Theme → Role → Color
  | .dark, .timestamp => ⟨118, 166, 166⟩
  | .dark, .primary => ⟨191, 126, 4⟩
  | .dark, .accent => ⟨166, 84, 55⟩
  | .dark, .info => ⟨118, 166, 166⟩
  | .dark, .success => ⟨118, 166, 166⟩
  | .dark, .label => ⟨217, 164, 4⟩
  | .dark, .value => ⟨242, 211, 56⟩
  | .light, .timestamp => ⟨92, 62, 38⟩
  | .light, .primary => ⟨70, 42, 25⟩
  | .light, .accent => ⟨211, 99, 70⟩
  | .light, .info => ⟨40, 111, 170⟩
  | .light, .success => ⟨34, 142, 90⟩
  | .light, .label => ⟨176, 103, 66⟩
  | .light, .value => ⟨199, 146, 76⟩

/-- A theme, or no colors. -/
abbrev Style : Type := Option Theme

/-- The style for what was asked for, what standard output is, and what the terminal says
about its colors. -/
def Style.choose (color : ColorMode) (theme : ThemeMode) (terminal : Bool)
    (colors : Option String) : Style :=
  let wanted := match color with
    | .always => true
    | .automatic => terminal
    | .never => false
  if wanted then
    match theme with
    | .fixed theme => some theme
    | .automatic => some (.ofTerminal colors)
  else none

/-- The mark that sets the color back. -/
def resetMark : String := "\x1b[39m"

/-- The mark in front of a piece. -/
def Style.mark (s : Style) (role : Role) : String :=
  match s with
  | none => resetMark
  | some theme =>
    let c := theme.color role
    "\x1b[38;2;" ++ toString c.red.toNat ++ ";" ++ toString c.green.toNat ++ ";" ++
      toString c.blue.toNat ++ "m"

def Style.paint (s : Style) (role : Role) (text : String) : String :=
  s.mark role ++ text ++ resetMark

end Bindery.CommandLine
