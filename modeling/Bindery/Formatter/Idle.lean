import Bindery.Formatter.Quoting
import Bindery.Formatter.Run

/-! Programs that do nothing.

One succeeds, one fails, and one takes its time before it succeeds. -/
namespace Bindery.Formatter

/-- Succeed. -/
def succeed : Program := fun setting => setting.start

/-- Fail. -/
def refuse : Program := fun setting => { setting.start with status := 1 }

/-- Whether a text is a time: a number that may have a fraction, and a unit. -/
def isTime (text : String) : Bool :=
  let cs := text.toList
  let whole := cs.takeWhile Char.isDigit
  let (fraction, rest) : List Char × List Char :=
    match cs.drop whole.length with
    | '.' :: rest => (rest.takeWhile Char.isDigit, rest.dropWhile Char.isDigit)
    | rest => ([], rest)
  !(whole.isEmpty && fraction.isEmpty) &&
    (rest.isEmpty || rest ∈ [['s'], ['m'], ['h'], ['d']])

/-- Succeed after a time. -/
def sleep : Program := fun setting =>
  match setting.arguments, setting.arguments.filter (!isTime ·) with
  | [], _ => setting.misused "missing operand"
  | _, [] => setting.start
  | _, wrong =>
    wrong.foldl (fun r text => setting.complain ("invalid time interval " ++ quoted text) r)
      setting.start |>.complain setting.hint

end Bindery.Formatter
