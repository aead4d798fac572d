import Bindery.Text.Pieces

/-! The lines of a text.

A line ends at a line feed, or at a carriage return with a line feed after it. What
follows the last line feed is a line only if there is something there; a carriage
return at its end belongs to it. -/
namespace Bindery.Text

/-- A line that a line feed ended, without the carriage return before that. -/
def dropReturn (line : String) : String :=
  match line.toList.reverse with
  | '\r' :: rest => String.ofList rest.reverse
  | _ => line

/-- The lines among pieces that line feeds part: all but the last were ended by one. -/
def endedLines : List String → List String
  | [] => []
  | [last] => if last = "" then [] else [last]
  | line :: next :: rest => dropReturn line :: endedLines (next :: rest)

def lines (text : String) : List String := endedLines (pieces '\n' text)

end Bindery.Text
