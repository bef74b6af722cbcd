import BoardConsole.Terminal.Grid

/-!
# The debug pane

A log of lines on a grid.  The cursor stands at the start of the line after the last one, where
progress may be shown until the next line takes its place.
-/

namespace BoardConsole.Interface

open Terminal (Grid)

/-- A grid made blank, with a default pen and the cursor at the start. -/
def clearGrid (g : Grid) : Grid :=
  g.applyAll [.disable .all, .setColors .standard .standard, .eraseDisplay .all, .move 0 0]

namespace DebugPane

/-- Text written from the cursor on, over whatever stands there. -/
def write (g : Grid) (text : List Char) : Grid :=
  (g.apply (.eraseLine .toEnd)).applyAll (text.map .write)

/-- The cursor moved to the start of the next line. -/
def newline (g : Grid) : Grid :=
  if g.rows ≤ g.row + 1 then (g.apply (.scroll 1)).apply (.move g.row 0)
  else g.apply (.move (g.row + 1) 0)

/-- A line added.  Text that exactly fills the width has already moved on to the next line. -/
def line (g : Grid) (text : List Char) : Grid :=
  let written := write g text
  if text.length = 0 ∨ text.length % g.cols ≠ 0 then newline written else written

/-- Text shown until the next output. -/
def progress (g : Grid) (text : List Char) : Grid :=
  let written := write g text
  written.apply (.move written.row 0)

end DebugPane

end BoardConsole.Interface
