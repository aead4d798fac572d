import Bindery.Text.Wrap

/-! Tables of text.

A column is two blanks wider than its content, and columns are one blank apart. Lines of
rules stand above and below the table and below its header. A cell may have several
lines; its row is as high as its highest cell.

A table that is too wide for its page is made narrower. Columns that need no more than
their share of the page keep their content's width, and what they leave of their shares
goes to the others. Those share what is left evenly, but for the ones whose content, cut
into lines, leaves enough of a share over. -/
namespace Bindery.CommandLine

/-- A header and rows of cells. -/
structure Table where
  header : List String
  rows : List (List String) := []
deriving DecidableEq, Repr, Inhabited

/-- Columns whose width may be settled, and the room that the others have together. -/
structure Arrangement where
  settled : List (Option Nat)
  room : Nat
deriving DecidableEq, Repr, Inhabited

namespace Arrangement

/-- How many columns are not settled. -/
def openCount (a : Arrangement) : Nat := a.settled.countP (·.isNone)

/-- An even share of the room for a column that is not settled. -/
def share (a : Arrangement) : Nat := a.room / a.openCount

/-- Settle the width of a column. -/
def settle (a : Arrangement) (column width : Nat) : Arrangement where
  settled := a.settled.set column (some width)
  room := a.room - width

/-- Settle columns, one after the other, for which there is a width at the share that
they then have. -/
def settleEach (width? : Nat → Nat → Option Nat) (a : Arrangement) : Arrangement :=
  (List.range a.settled.length).foldl (fun a column =>
    match a.settled[column]? with
    | some none =>
      match width? column a.share with
      | some width => a.settle column width
      | none => a
    | _ => a) a

/-- Settle columns as long as one has a width; each time there is one less to settle. -/
def settleAll (width? : Nat → Nat → Option Nat) (a : Arrangement) : Arrangement :=
  (a.settled.foldl (fun settle _ => settle ∘ settleEach width?) id) a

/-- Give each column that is not settled a share, and the first ones what is left over. -/
def distribute (share : Nat) : Nat → List (Option Nat) → List Nat
  | _, [] => []
  | left, some width :: rest => width :: distribute share left rest
  | 0, none :: rest => share :: distribute share 0 rest
  | left + 1, none :: rest => (share + 1) :: distribute share left rest

def widths (a : Arrangement) : List Nat :=
  let room := Nat.max a.room a.openCount
  let share := room / a.openCount
  (distribute share (room - share * a.openCount) a.settled).map (Nat.max 1)

end Arrangement

namespace Table

def cellLines (cell : String) : List String := Text.pieces '\n' cell

def widest (lines : List String) : Nat := (lines.map Text.columns).foldl Nat.max 0

/-- The lines of a cell in a column of a width. -/
def wrappedLines (width : Nat) (cell : String) : List String :=
  (cellLines cell).flatMap (Text.wrap width)

/-- The columns of cells. -/
def columns (t : Table) : List (List String) :=
  t.header.zipIdx.map fun (title, i) => title :: t.rows.map (·.getD i "")

/-- So much of a share has to be left over for a column to be made narrower than it. -/
def leastSurplus : Nat := 3

/-- The widths of the columns on a page, without the blanks around a cell. -/
def widths (t : Table) (pageWidth : Nat) : List Nat :=
  let columns := t.columns
  let needs := columns.map fun cells => widest (cells.flatMap cellLines)
  let start : Arrangement := {
    settled := columns.map fun _ => none
    room := pageWidth - (columns.length - 1) - 2 * columns.length }
  let fitting := start.settleAll fun column share =>
    let need := needs.getD column 0
    if need ≤ share then some need else none
  let wrapped := fitting.settleAll fun column share =>
    let need := widest ((columns.getD column []).flatMap (wrappedLines share))
    if need + leastSurplus ≤ share then some need else none
  wrapped.widths

/-- A line of a cell, filled up to a width. -/
def fill (width : Nat) (rightAligned : Bool) (line : String) : String :=
  let blanks := Text.replicate (width - Text.columns line) " "
  if rightAligned then " " ++ blanks ++ line ++ " " else " " ++ line ++ blanks ++ " "

/-- The lines of a row. Its first cell is aligned to the right if that is asked for. -/
def rowLines (widths : List Nat) (numbered : Bool) (row : List String) : List String :=
  let cells := (row.zip widths).map fun (cell, width) => wrappedLines width cell
  let height := (cells.map List.length).foldl Nat.max 0
  (List.range height).map fun i =>
    let line := (cells.zip widths).map fun (lines, width) => (width, lines.getD i "")
    match line with
    | [] => ""
    | (width, first) :: rest =>
      let others := rest.map fun (width, line) => fill width false line
      Text.join " " (fill width numbered first :: others)

def rule (width : Nat) : String := Text.replicate width "─"

/-- The lines of a table on a page. The cells of its first column are numbers. -/
def lines (t : Table) (pageWidth : Nat) : List String :=
  let widths := t.widths pageWidth
  let outer := Text.join " " (widths.map fun w => rule (w + 2))
  let total := (widths.map (· + 2)).foldr (· + ·) 0 + (widths.length - 1)
  [outer] ++ rowLines widths false t.header ++ [rule total] ++
    t.rows.flatMap (rowLines widths true) ++ [outer]

end Table

end Bindery.CommandLine
