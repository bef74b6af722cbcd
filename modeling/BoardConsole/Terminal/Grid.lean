import BoardConsole.Terminal.Rendition

/-!
# The character grid

A screen of cells with a cursor and a pen.  Its view is `cell?`, the cell at a row and a column;
everything that can be done to a grid is an `Action`, so that what an interpreter asks for is
plain data.  Erasing, scrolling, inserting and deleting leave the cursor where it is.
-/

namespace BoardConsole.Terminal

/-- One character cell. -/
structure Cell where
  /-- The character shown. -/
  char : Char := ' '
  /-- The pen it was drawn with. -/
  pen : Pen := {}
  deriving DecidableEq, Repr

/-- An empty cell. -/
def Cell.blank : Cell := {}

/-- A part of the cursor's line. -/
inductive LineErase
  /-- From the cursor to the end. -/
  | toEnd
  /-- From the start up to the cursor, without the cursor's cell. -/
  | toCursor
  /-- The whole line. -/
  | all
  deriving DecidableEq, Repr

/-- A part of the screen. -/
inductive DisplayErase
  /-- From the cursor to the end. -/
  | toEnd
  /-- Everything. -/
  | all
  deriving DecidableEq, Repr

/-- Something done to a grid. -/
inductive Action
  /-- The cursor goes to a row and a column. -/
  | move (row col : Nat)
  /-- A character is drawn at the cursor, which advances. -/
  | write (char : Char)
  /-- A part of the cursor's line becomes blank. -/
  | eraseLine (part : LineErase)
  /-- A part of the screen becomes blank. -/
  | eraseDisplay (part : DisplayErase)
  /-- The contents move up by a count of lines, down if it is negative. -/
  | scroll (lines : Int)
  /-- Blank lines come in at the cursor's row. -/
  | insertLines (count : Nat)
  /-- Lines go away at the cursor's row. -/
  | deleteLines (count : Nat)
  /-- A blank comes in at the cursor. -/
  | insertChar
  /-- The character at the cursor goes away. -/
  | deleteChar
  /-- Attributes are turned on. -/
  | enable (attributes : Attributes)
  /-- Attributes are turned off. -/
  | disable (attributes : Attributes)
  /-- The colours of what is drawn next. -/
  | setColors (foreground background : Color)
  /-- The bell rings. -/
  | bell
  deriving DecidableEq, Repr

/-- A list cut or padded to a length. -/
def fit {α : Type} (n : Nat) (filler : α) (xs : List α) : List α :=
  xs.take n ++ List.replicate (n - xs.length) filler

/-- A line with the cells from one column up to another made blank. -/
def blankBetween (first last : Nat) (line : List Cell) : List Cell :=
  line.mapIdx fun j cell => if first ≤ j ∧ j < last then .blank else cell

/-- What all members have and the change keeps, all members have after it. -/
theorem forall_mem_modify {α : Type} {P : α → Prop} {xs : List α} (h : ∀ x ∈ xs, P x) (i : Nat)
    {f : α → α} (hf : ∀ x, P x → P (f x)) : ∀ x ∈ xs.modify i f, P x := by
  intro x hx
  obtain ⟨j, hj⟩ := List.mem_iff_getElem?.mp hx
  rw [List.getElem?_modify, Option.map_eq_map, Option.map_eq_some_iff] at hj
  obtain ⟨old, hold, rfl⟩ := hj
  have hP := h old (List.mem_of_getElem? hold)
  split
  · exact hf old hP
  · exact hP

/-- A screen of cells with a cursor and a pen. -/
structure Grid where
  /-- The lines, top to bottom. -/
  lines : List (List Cell)
  /-- The length of every line. -/
  cols : Nat
  /-- The cursor's row. -/
  row : Nat := 0
  /-- The cursor's column. -/
  col : Nat := 0
  /-- The pen for what is drawn next. -/
  pen : Pen := {}
  /-- How often the bell has rung since it was last asked about. -/
  bells : Nat := 0
  deriving DecidableEq, Repr

namespace Grid

/-- The number of lines. -/
def rows (g : Grid) : Nat := g.lines.length

/-- The cell at a row and a column. -/
def cell? (g : Grid) (row col : Nat) : Option Cell := g.lines[row]?.bind (·[col]?)

/-- The characters of a line, trailing blanks included; nothing for a line that is not there. -/
def rowText (g : Grid) (row : Nat) : List Char := (g.lines[row]?.getD []).map Cell.char

/-- A line of blanks. -/
def blankLine (g : Grid) : List Cell := List.replicate g.cols .blank

/-- A blank grid; no dimension is less than one. -/
def blank (rows cols : Nat) : Grid :=
  { lines := List.replicate (max rows 1) (List.replicate (max cols 1) .blank), cols := max cols 1 }

/-- A grid of another size with the same top left contents. -/
def resize (g : Grid) (rows cols : Nat) : Grid :=
  { g with
    lines := fit (max rows 1) (List.replicate (max cols 1) .blank)
      (g.lines.map (fit (max cols 1) .blank))
    cols := max cols 1
    row := min g.row (max rows 1 - 1)
    col := min g.col (max cols 1 - 1) }

/-- The cursor at a row and a column, or at the edge when they lie outside. -/
def moveCursor (g : Grid) (row col : Nat) : Grid :=
  { g with row := min row (g.rows - 1), col := min col (g.cols - 1) }

/-- The contents moved up, blank lines coming in below. -/
def scrollUp (g : Grid) (n : Nat) : Grid :=
  { g with lines := g.lines.drop n ++ List.replicate (min n g.rows) g.blankLine }

/-- The contents moved down, blank lines coming in above. -/
def scrollDown (g : Grid) (n : Nat) : Grid :=
  { g with lines := List.replicate (min n g.rows) g.blankLine ++ g.lines.take (g.rows - n) }

/-- The contents moved up, or down by a negative count. -/
def scroll (g : Grid) (lines : Int) : Grid :=
  if 0 ≤ lines then g.scrollUp lines.toNat else g.scrollDown (-lines).toNat

/-- A character drawn at the cursor.  The cursor goes on to the next line at the right margin,
and the contents scroll when there is no next line. -/
def writeChar (g : Grid) (char : Char) : Grid :=
  let g := { g with lines := g.lines.modify g.row (·.set g.col ⟨char, g.pen⟩) }
  if g.col + 1 < g.cols then { g with col := g.col + 1 }
  else if g.row + 1 < g.rows then { g with row := g.row + 1, col := 0 }
  else { g.scrollUp 1 with col := 0 }

/-- A part of the cursor's line made blank. -/
def eraseLine (g : Grid) (part : LineErase) : Grid :=
  let (first, last) := match part with
    | .toEnd => (g.col, g.cols)
    | .toCursor => (0, g.col)
    | .all => (0, g.cols)
  { g with lines := g.lines.modify g.row (blankBetween first last) }

/-- A part of the screen made blank. -/
def eraseDisplay (g : Grid) (part : DisplayErase) : Grid :=
  let (g, first) := match part with
    | .toEnd => (g.eraseLine .toEnd, g.row + 1)
    | .all => (g, 0)
  { g with lines := g.lines.mapIdx fun i line =>
      if first ≤ i then blankBetween 0 g.cols line else line }

/-- Blank lines put in at the cursor's row; the last lines are lost. -/
def insertLines (g : Grid) (count : Nat) : Grid :=
  let n := min count (g.rows - g.row)
  { g with lines :=
      g.lines.take g.row ++ List.replicate n g.blankLine
        ++ (g.lines.drop g.row).take (g.rows - g.row - n) }

/-- Lines taken out at the cursor's row; blank lines come in at the bottom. -/
def deleteLines (g : Grid) (count : Nat) : Grid :=
  let n := min count (g.rows - g.row)
  { g with lines :=
      g.lines.take g.row ++ g.lines.drop (g.row + n) ++ List.replicate n g.blankLine }

/-- A blank put in at the cursor; the last cell of the line is lost. -/
def insertChar (g : Grid) : Grid :=
  { g with lines := g.lines.modify g.row fun line => line.dropLast.insertIdx g.col .blank }

/-- The cell at the cursor taken out; a blank comes in at the end of the line. -/
def deleteChar (g : Grid) : Grid :=
  { g with lines := g.lines.modify g.row fun line => line.eraseIdx g.col ++ [.blank] }

/-- Attributes of the pen turned on. -/
def enable (g : Grid) (attributes : Attributes) : Grid :=
  { g with pen := { g.pen with attributes := g.pen.attributes.union attributes } }

/-- Attributes of the pen turned off. -/
def disable (g : Grid) (attributes : Attributes) : Grid :=
  { g with pen := { g.pen with attributes := g.pen.attributes.without attributes } }

/-- The pen with other colours. -/
def setColors (g : Grid) (foreground background : Color) : Grid :=
  { g with pen := { g.pen with foreground, background } }

/-- What an action does. -/
def apply (g : Grid) : Action → Grid
  | .move row col => g.moveCursor row col
  | .write char => g.writeChar char
  | .eraseLine part => g.eraseLine part
  | .eraseDisplay part => g.eraseDisplay part
  | .scroll lines => g.scroll lines
  | .insertLines count => g.insertLines count
  | .deleteLines count => g.deleteLines count
  | .insertChar => g.insertChar
  | .deleteChar => g.deleteChar
  | .enable attributes => g.enable attributes
  | .disable attributes => g.disable attributes
  | .setColors foreground background => g.setColors foreground background
  | .bell => { g with bells := g.bells + 1 }

/-- What a list of actions does, first to last. -/
def applyAll (g : Grid) (actions : List Action) : Grid := actions.foldl apply g

theorem applyAll_append (g : Grid) (actions more : List Action) :
    g.applyAll (actions ++ more) = (g.applyAll actions).applyAll more :=
  List.foldl_append

/-- The number of rings since the bell was last asked about, and the grid with none. -/
def takeBells (g : Grid) : Nat × Grid := (g.bells, { g with bells := 0 })

end Grid

end BoardConsole.Terminal
