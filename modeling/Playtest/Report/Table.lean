import Playtest.Text.Width

/-!
# Tables

Rows of cells in a frame of lines. A column is as wide as its widest cell, and a row as high as its
highest; cells stand at the upper left of their place.
-/

namespace Playtest.Report

open Playtest.Text

/-- The lines of the frame between two rows: left end, crossing, right end. -/
structure Rule where
  left : Char
  crossing : Char
  right : Char

/-- The frame above the first row. -/
def Rule.top : Rule := ⟨'┌', '┬', '┐'⟩

/-- The frame between two rows. -/
def Rule.middle : Rule := ⟨'├', '┼', '┤'⟩

/-- The frame below the last row. -/
def Rule.bottom : Rule := ⟨'└', '┴', '┘'⟩

/-- Parts with a character between each two of them, and one at each end. -/
def framed (left between right : Char) (parts : List (List Char)) : List Char :=
  left :: ([between].intercalate parts ++ [right])

/-- A line of the frame over columns of some widths. -/
def Rule.draw (r : Rule) (widths : List Nat) : List Char :=
  framed r.left r.crossing r.right (widths.map fun w => List.replicate (w + 2) '─')

/-- A line of a cell with blanks up to the width of its column, and one more on each side. -/
def padded (width : Nat) (line : List Char) : List Char :=
  ' ' :: (line ++ List.replicate (width - Text.width line + 1) ' ')

/-- One line of a row. -/
def rowLine (widths : List Nat) (row : List (List Char)) (position : Nat) : List Char :=
  framed '│' '│' '│' ((widths.zip row).map fun (w, cell) =>
    padded w ((lines cell)[position]?.getD []))

/-- The lines of a row. -/
def rowLines (widths : List Nat) (row : List (List Char)) : List (List Char) :=
  let height := (row.map fun cell => (lines cell).length).foldl max 1
  (List.range height).map (rowLine widths row)

/-- The width that each column needs. -/
def columnWidths (header : List (List Char)) (rows : List (List (List Char))) : List Nat :=
  rows.foldl (fun widths row => (widths.zip (row.map blockWidth)).map fun (a, b) => max a b)
    (header.map blockWidth)

/-- **A table** with a header, without a line break at its end. Every row has as many cells as the
header. -/
def table (header : List String) (rows : List (List String)) : String :=
  let header := header.map String.toList
  let rows := rows.map (·.map String.toList)
  let widths := columnWidths header rows
  let body := ((header :: rows).map (rowLines widths)).intersperse [Rule.middle.draw widths]
  String.ofList (['\n'].intercalate
    (Rule.top.draw widths :: (body.flatten ++ [Rule.bottom.draw widths])))

end Playtest.Report
