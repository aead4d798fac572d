import Bindery.Formatter.CharSet
import Bindery.Formatter.Run

/-! The program that repeats its arguments.

The arguments are written with blanks between them. The options in front of them decide
whether a line end follows and whether backslashes mean something. -/
namespace Bindery.Formatter

namespace Echo

/-- How arguments are repeated. -/
structure Manner where
  ends : Bool := true
  escapes : Bool := false
deriving DecidableEq, Inhabited

/-- The manner that an argument asks for, if it is an option. -/
def Manner.with? (m : Manner) (argument : String) : Option Manner :=
  match argument.toList with
  | '-' :: c :: more =>
    if (c :: more).all (· ∈ ['n', 'e', 'E']) then
      some ((c :: more).foldl (fun m c =>
        match c with
        | 'n' => { m with ends := false }
        | 'e' => { m with escapes := true }
        | _ => { m with escapes := false }) m)
    else none
  | _ => none

/-- The manner that the arguments in front ask for, and the others. -/
def options : Manner → List String → Manner × List String
  | m, [] => (m, [])
  | m, argument :: rest =>
    match m.with? argument with
    | some m => options m rest
    | none => (m, argument :: rest)

/-- The number that hexadecimal or octal digits spell. -/
def spelled (base : Nat) (digits : List Char) : Char :=
  Char.ofNat (digits.foldl (fun n c =>
    n * base + (if c.isDigit then c.toNat - '0'.toNat else c.toLower.toNat - 'a'.toNat + 10))
    0 % 256)

/-- A text with its backslashes resolved, at most so many characters, and whether it asked
to stop. -/
def resolve : Nat → List Char → Octets × Bool
  | 0, _ | _, [] => ([], false)
  | n + 1, '\\' :: c :: rest =>
    let on (os : Octets) (rest : List Char) : Octets × Bool :=
      let (below, stops) := resolve n rest
      (os ++ below, stops)
    let hex := (rest.takeWhile fun d => d.isDigit || d.toLower ∈ "abcdef".toList).take 2
    let octalAfter (cs : List Char) : List Char :=
      (cs.takeWhile fun d => (octalDigit? d).isSome).take 3
    match c with
    | 'c' => ([], true)
    | '\\' => on ['\\'] rest
    | 'e' => on ['\x1b'] rest
    | 'x' =>
      if hex.isEmpty then on ['\\', 'x'] rest
      else on [spelled 16 hex] (rest.drop hex.length)
    | '0' =>
      let digits := octalAfter rest
      on [spelled 8 digits] (rest.drop digits.length)
    | c =>
      if (octalDigit? c).isSome then
        let digits := octalAfter (c :: rest)
        on [spelled 8 digits] ((c :: rest).drop digits.length)
      else
        match escapedControl? c with
        | some d => on [d] rest
        | none => on ['\\', c] rest
  | n + 1, c :: rest =>
    let (below, stops) := resolve n rest
    (c :: below, stops)

def text (arguments : List String) : Octets :=
  let (m, arguments) := options {} arguments
  let whole := (Text.join " " arguments).toList
  let (os, stops) := if m.escapes then resolve whole.length whole else (whole, false)
  if m.ends && !stops then os ++ ['\n'] else os

end Echo

/-- Repeat the arguments. -/
def echo : Program := fun setting =>
  setting.finish (setting.start.say (Echo.text setting.arguments))

end Bindery.Formatter
