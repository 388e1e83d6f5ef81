import RbsSynth.Console.Lines

/-!
Tables in boxes.

A column is as wide as its widest cell, with a space at either side.  The head has a heavy frame.
-/

namespace RbsSynth.Console

structure Column where
  title : String
  /-- Whether cells stand at the right. -/
  toRight : Bool := false

/-- The columns that a cell asks for; a tab asks for none. -/
def measure (cell : String) : Nat :=
  ((Text.splitOn ['\n'] (printed cell.toList)).map columns).foldl max 0

/-- A line of a cell, filled up with spaces. -/
def pad (width : Nat) (toRight : Bool) (line : List Char) : List Char :=
  if toRight then
    let line := Text.trimEnd line
    List.replicate (width - columns line) ' ' ++ line
  else line ++ List.replicate (width - columns line) ' '

/-- The lines of a cell, each of the width. -/
def cellLines (width : Nat) (toRight : Bool) (cell : String) : List (List Char) :=
  ((shownLines cell.toList).flatMap (breakLine width false)).map (pad width toRight)

/-- A line of a frame: its left end, what it is drawn with, its crossings and its right end. -/
def frameLine (left across crossing right : Char) (widths : List Nat) : List Char :=
  let parts := widths.map fun w => List.replicate (w + 2) across
  left :: [crossing].intercalate parts ++ [right]

/-- The lines of a row between vertical lines; cells with fewer lines go on with blank ones. -/
def rowLines (bar : Char) (cells : List (Nat × List (List Char))) : List (List Char) :=
  let height := (cells.map (·.2.length)).foldl max 0
  (List.range height).map fun n =>
    let parts := cells.map fun (width, lines) =>
      ' ' :: lines.getD n (List.replicate width ' ') ++ [' ']
    bar :: [bar].intercalate parts ++ [bar]

/-- The widths of columns whose cells are given row by row. -/
def widthsOf (rows : List (List String)) (columns : List Column) : List Nat :=
  (List.range columns.length).map fun n =>
    max 1 ((rows.map fun row => measure (row.getD n "")).foldl max 0)

/-- The lines of a table. -/
def tableLines (columns : List Column) (rows : List (List String)) : List (List Char) :=
  let titles := columns.map (·.title)
  let widths := widthsOf (titles :: rows) columns
  let cells := fun row : List String =>
    ((widths.zip columns).zip row).map fun ((width, c), cell) =>
      (width, cellLines width c.toRight cell)
  [frameLine '┏' '━' '┳' '┓' widths] ++ rowLines '┃' (cells titles)
    ++ [frameLine '┡' '━' '╇' '┩' widths] ++ rows.flatMap (fun row => rowLines '│' (cells row))
    ++ [frameLine '└' '─' '┴' '┘' widths]

def renderTable (columns : List Column) (rows : List (List String)) : String :=
  .ofList ((tableLines columns rows).flatMap (· ++ ['\n']))

end RbsSynth.Console
