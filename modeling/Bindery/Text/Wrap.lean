import Bindery.Text.Clusters
import Bindery.Text.Columns
import Bindery.Text.Pieces

/-! Lines that fit into a width.

A line that is too long is cut at its blanks. A word goes into the line that is being
filled if it fits there, and else begins a new one. Only a word that is longer than a
line is cut itself, and then what is left of the line that is being filled is used if it
is more than two columns. -/
namespace Bindery.Text

/-- So little room at the end of a line is not used. -/
def leastRoom : Nat := 2

/-- As many of the clusters as fit into a width, and the others. -/
def fitClusters : Nat → List String → List String × List String
  | _, [] => ([], [])
  | width, cluster :: rest =>
    if columns cluster ≤ width then
      let (fit, others) := fitClusters (width - columns cluster) rest
      (cluster :: fit, others)
    else ([], cluster :: rest)

/-- Cut a word so that its first part fits into a width. -/
def cutWord (width : Nat) (word : String) : String × String :=
  let (fit, others) := fitClusters width (clusters word)
  (join "" fit, join "" others)

/-- Cut a word for a line of its own: one character stays even if it does not fit. -/
def cutLongWord (width : Nat) (word : String) : String × String :=
  match cutWord width word with
  | ("", rest) => (String.ofList (rest.toList.take 1), String.ofList (rest.toList.drop 1))
  | parts => parts

/-- A line that was filled so far: finished if there is hardly any room left. -/
def endIfFull (width : Nat) (line : String) : List String × String :=
  if width - leastRoom < columns line then ([line], "") else ([], line)

/-- Fill lines with words; `line` is the one that is being filled. A step takes a word or a
part of one, or ends a line that a word began, so there are at most four steps for each
character and one more. -/
def fillLines (width : Nat) : Nat → String → List String → List String
  | 0, line, _ | _, line, [] => if line = "" then [] else [line]
  | steps + 1, line, word :: rest =>
    let lead := if line = "" then "" else line ++ " "
    let room := width - columns line - (if line = "" then 0 else 1)
    if columns line + columns word + (if line = "" then 0 else 1) ≤ width then
      let (done, line) := endIfFull width (lead ++ word)
      done ++ fillLines width steps line rest
    else if line ≠ "" ∧ room ≤ leastRoom then line :: fillLines width steps "" (word :: rest)
    else if width < columns word then
      let (part, left) := if line = "" then cutLongWord room word else cutWord room word
      (lead ++ part) :: fillLines width steps "" (left :: rest)
    else
      let (done, next) := endIfFull width word
      line :: done ++ fillLines width steps next rest

/-- The lines of a text that fit into a width. -/
def wrap (width : Nat) (text : String) : List String :=
  if columns text ≤ width then [text]
  else fillLines width (4 * (text.length + 1)) "" (pieces ' ' text)

end Bindery.Text
