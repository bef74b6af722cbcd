import BoardConsole.Interface.App

/-!
# The screen

What is sent to the host's terminal: control sequences and characters, as text.  The whole screen
is drawn anew after every burst of inputs.

* `glyph`: the character shown for a cell.
* `drawGrid`, `App.draw`: a pane and the screen.
* `App.run`: everything from the first drawing to the last.
-/

namespace BoardConsole.Interface

open Terminal (Attributes Cell Color Grid Pen)

/-- The character of the alternate set for a character of the usual one. -/
def lineDrawing (c : Char) : Char :=
  match c with
  | 'j' => '┘'
  | 'k' => '┐'
  | 'l' => '┌'
  | 'm' => '└'
  | 'n' => '┼'
  | 'q' => '─'
  | 't' => '├'
  | 'u' => '┤'
  | 'v' => '┴'
  | 'w' => '┬'
  | 'x' => '│'
  | 'a' => '▒'
  | '\x60' => '◆'
  | 'f' => '°'
  | 'g' => '±'
  | '~' => '·'
  | other => other

/-- The character shown for a cell.  Control characters of the usual set are shown by pictures. -/
def glyph (cell : Cell) : Char :=
  let code := cell.char.toNat
  if cell.pen.attributes.contains .altCharset then lineDrawing cell.char
  else if code < 0x20 then Char.ofNat (0x2400 + code)
  else if code = 0x7F then '\u2421'
  else if 0x80 ≤ code ∧ code ≤ 0x9F then '?'
  else cell.char

/-! ## Control sequences -/

/-- A control sequence by what comes after its introducer. -/
def control (rest : String) : List Char := '\x1b' :: '[' :: rest.toList

/-- A coordinate as it is sent: sixteen bits, counted from one. -/
def coordinate (n : Nat) : Nat := n % 0x10000 + 1

/-- The cursor moved to a column and a row. -/
def moveTo (col row : Nat) : List Char := control s!"{coordinate row};{coordinate col}H"

/-- A rendition by its number. -/
def rendition (number : Nat) : List Char := control s!"{number}m"

/-- The number of a colour, by that of the default and the introducer of the others. -/
def colour (standard introducer : Nat) : Color → List Char
  | .standard => rendition standard
  | color => control s!"{introducer};5;{color.index}m"

/-- The attributes that are shown, with the numbers of their renditions. -/
def shownAttributes : List (Attributes × Nat) :=
  [(.bold, 1), (.dim, 2), (.underline, 4), (.blink, 5), (.reverse, 7), (.conceal, 8)]

/-- Everything that makes a terminal draw with a pen. -/
def setPen (pen : Pen) : List Char :=
  rendition 0
    ++ shownAttributes.flatMap (fun (shown, number) =>
      if pen.attributes.contains shown then rendition number else [])
    ++ colour 39 38 pen.foreground ++ colour 49 48 pen.background

/-! ## Drawing -/

/-- Cells from left to right, after cells drawn with a pen. -/
def drawCells : Option Pen → List Cell → List Char
  | _, [] => []
  | current, cell :: rest =>
    (if current = some cell.pen then [] else setPen cell.pen)
      ++ glyph cell :: drawCells (some cell.pen) rest

/-- The lines of a grid from a row of the screen on. -/
def drawLines : Nat → List (List Cell) → List Char
  | _, [] => []
  | row, line :: rest => moveTo 0 row ++ drawCells none line ++ drawLines (row + 1) rest

/-- A grid at a row of the screen. -/
def drawGrid (g : Grid) (top : Nat) : List Char := drawLines top g.lines ++ rendition 0

/-- What stands on the screen while the next key is a command. -/
def commandLabel : String := "Command?"

namespace App

/-- Where the cursor is put at last, as column and row. -/
def finalCursor (a : App) : Nat × Nat :=
  match a.focus with
  | .console => (a.console.grid.col, a.console.grid.row)
  | .command => ((a.command.view a.layout.cols).2, a.layout.commandRow)

/-- The screen drawn, and the application whose bell has been rung. -/
def draw (a : App) : List Char × App :=
  let layout := a.layout
  let (rings, rung) := a.takeBell
  (control "?25l"
    ++ drawGrid a.console.grid 0
    ++ moveTo 0 layout.divider ++ rendition 0 ++ List.replicate layout.cols '─'
    ++ drawGrid a.debug layout.debugTop
    ++ moveTo 0 layout.commandRow ++ rendition 0 ++ (a.command.view layout.cols).1 ++ control "K"
    ++ (if a.awaitsCommand then
        moveTo (layout.cols - commandLabel.length) 0 ++ rendition 7 ++ commandLabel.toList
          ++ rendition 0
      else [])
    ++ (if rings then ['\x07'] else [])
    ++ moveTo a.finalCursor.1 a.finalCursor.2 ++ control "?25h",
  rung)

/-- What is sent before the first drawing. -/
def enterScreen : List Char := control "?1049h" ++ control "2J"

/-- What is sent after the last drawing. -/
def leaveScreen : List Char := rendition 0 ++ control "?25h" ++ control "?1049l"

/-- What is sent for bursts of inputs up to the first that asks for the end, the reason for the
end, which is empty when there are no more inputs, and the application at the end. -/
def runBursts (a : App) : List (List Input) → List Char × String × App
  | [] => ([], "", a)
  | burst :: rest =>
    let a := a.handleBurst burst
    match a.quit with
    | some reason => ([], reason, { a with quit := none })
    | none =>
      let (drawn, a) := a.draw
      let (more, reason, a) := a.runBursts rest
      (drawn ++ more, reason, a)

/-- Everything sent to the terminal, the reason for the end, and the application at the end. -/
def run (a : App) (bursts : List (List Input)) : List Char × String × App :=
  let (drawn, a) := a.draw
  let (more, reason, a) := a.runBursts bursts
  (enterScreen ++ drawn ++ more ++ leaveScreen, reason, a)

end App

end BoardConsole.Interface
