import BoardConsole.Proofs.Tokens
import Mathlib.Data.List.Induction

/-!
# The layout of plain text

Text without control characters fills the lines of a blank terminal one after another, and when
there are no more lines the first ones go.  So the screen is a window on an endless sheet that the
text is written on line by line: as far down as it has to be for the line of the cursor to be in it.

- `sheetCell`, `sheetLine`: the endless sheet.
- `Grid.typed`: the window on it, as a grid.
- `Grid.writeChar_typed`: **one more character is one more byte of the text**, at the margin, at the
  bottom and in between.
- `Display.feedAll_plain`: plain text on a blank terminal is the window.
- `Display.plain_layout`: which byte of the text every cell holds, and where the cursor is.
-/

namespace BoardConsole.Terminal

/-! ## The endless sheet -/

/-- The cell of the sheet at a position, counted line by line. -/
def sheetCell (text : Bytes) (position : Nat) : Cell :=
  match text[position]? with
  | some b => { char := Bytes.toChar b }
  | none => .blank

/-- A line of the sheet. -/
def sheetLine (cols : Nat) (text : Bytes) (line : Nat) : List Cell :=
  (List.range cols).map fun j => sheetCell text (line * cols + j)

theorem sheetCell_concat (text : Bytes) (b : UInt8) (position : Nat) :
    sheetCell (text ++ [b]) position
      = if position = text.length then { char := Bytes.toChar b } else sheetCell text position := by
  rw [sheetCell, sheetCell, List.getElem?_append]
  by_cases hlt : position < text.length
  · rw [if_pos hlt, if_neg (by omega)]
  · rw [if_neg hlt, List.getElem?_singleton, List.getElem?_eq_none (Nat.le_of_not_lt hlt)]
    by_cases heq : position = text.length
    · rw [if_pos heq, if_pos (by omega)]
    · rw [if_neg heq, if_neg (by omega)]

/-- Where nothing has been written the sheet is blank. -/
theorem sheetLine_blank {cols : Nat} {text : Bytes} {line : Nat} (h : text.length ≤ line * cols) :
    sheetLine cols text line = List.replicate cols .blank := by
  refine List.eq_replicate_iff.mpr ⟨by rw [sheetLine, List.length_map, List.length_range], ?_⟩
  intro cell hcell
  obtain ⟨j, -, rfl⟩ := List.mem_map.mp hcell
  rw [sheetCell, List.getElem?_eq_none (by omega)]

section

variable {cols : Nat} (hcols : 0 < cols) (text : Bytes) (b : UInt8)
include hcols

/-- One more byte changes its own line only. -/
theorem sheetLine_concat_of_ne {line : Nat} (h : line ≠ text.length / cols) :
    sheetLine cols (text ++ [b]) line = sheetLine cols text line := by
  refine List.map_congr_left fun j hj => ?_
  rw [sheetCell_concat, if_neg]
  rintro heq
  refine h ?_
  rw [← heq, Nat.mul_comm, Nat.mul_add_div hcols, Nat.div_eq_of_lt (List.mem_range.mp hj),
    Nat.add_zero]

/-- In its own line one more byte changes its own cell only. -/
theorem sheetLine_concat :
    sheetLine cols (text ++ [b]) (text.length / cols)
      = (sheetLine cols text (text.length / cols)).set (text.length % cols)
          { char := Bytes.toChar b } := by
  have hposition := Nat.div_add_mod' text.length cols
  refine List.ext_getElem? fun j => ?_
  rw [List.getElem?_set, sheetLine, sheetLine, List.length_map, List.length_range,
    List.getElem?_map, List.getElem?_map]
  by_cases hj : j < cols
  · rw [List.getElem?_range hj, Option.map_some, Option.map_some, sheetCell_concat]
    by_cases hlast : text.length % cols = j
    · rw [if_pos hlast, if_pos (by omega), if_pos (Nat.mod_lt _ hcols)]
    · rw [if_neg hlast, if_neg (by omega)]
  · have hnone : (List.range cols)[j]? = none :=
      List.getElem?_eq_none (by rw [List.length_range]; omega)
    rw [hnone, if_neg]
    · rfl
    · intro hlast
      have := Nat.mod_lt text.length hcols
      omega

end

/-- A position that is not the last of its line is followed by one in the same line. -/
theorem succ_div_mod {cols position : Nat} (h : position % cols + 1 < cols) :
    (position + 1) / cols = position / cols ∧ (position + 1) % cols = position % cols + 1 := by
  refine (Nat.div_mod_unique (by omega)).mpr ⟨?_, h⟩
  have := Nat.mod_add_div position cols
  omega

/-- The last position of a line is followed by the first of the next. -/
theorem succ_div_mod_margin {cols position : Nat} (hcols : 0 < cols)
    (h : position % cols + 1 = cols) :
    (position + 1) / cols = position / cols + 1 ∧ (position + 1) % cols = 0 := by
  refine (Nat.div_mod_unique hcols).mpr ⟨?_, hcols⟩
  have := Nat.mod_add_div position cols
  rw [Nat.mul_add]
  omega

/-! ## The window -/

namespace Grid

/-- What becomes of the cursor when something has been drawn at it. -/
def advance (g : Grid) : Grid :=
  if g.col + 1 < g.cols then { g with col := g.col + 1 }
  else if g.row + 1 < g.rows then { g with row := g.row + 1, col := 0 }
  else { g.scrollUp 1 with col := 0 }

theorem writeChar_eq (g : Grid) (char : Char) :
    g.writeChar char
      = ({ g with lines := g.lines.modify g.row (·.set g.col ⟨char, g.pen⟩) } : Grid).advance := rfl

/-- A window on the sheet of a text that has some lines above it, with a cursor. -/
def window (rows cols : Nat) (text : Bytes) (above row col : Nat) : Grid where
  lines := (List.range rows).map fun i => sheetLine cols text (i + above)
  cols := cols
  row := row
  col := col

section

variable {rows cols : Nat} {text : Bytes} {above row col : Nat}

theorem rows_window : (window rows cols text above row col).rows = rows := by
  rw [Grid.rows, window, List.length_map, List.length_range]

/-- The cells of the window, and none outside it. -/
theorem cell?_window (i j : Nat) :
    (window rows cols text above row col).cell? i j
      = if i < rows ∧ j < cols then some (sheetCell text ((i + above) * cols + j)) else none := by
  rw [cell?, window, List.getElem?_map]
  by_cases hi : i < rows
  · rw [List.getElem?_range hi, Option.map_some, Option.bind_some, sheetLine, List.getElem?_map]
    by_cases hj : j < cols
    · rw [List.getElem?_range hj, if_pos ⟨hi, hj⟩]
      rfl
    · rw [if_neg fun h => hj h.2, List.getElem?_eq_none (by rw [List.length_range]; omega)]
      rfl
  · rw [if_neg fun h => hi h.1, List.getElem?_eq_none (by rw [List.length_range]; omega)]
    rfl

/-- Where there is no text the window is blank. -/
theorem window_nil (rows cols : Nat) :
    window (max rows 1) (max cols 1) [] 0 0 0 = blank rows cols := by
  have hlines : (List.range (max rows 1)).map (fun i => sheetLine (max cols 1) [] (i + 0))
      = List.replicate (max rows 1) (List.replicate (max cols 1) .blank) := by
    refine List.eq_replicate_iff.mpr ⟨by rw [List.length_map, List.length_range], ?_⟩
    intro line hline
    obtain ⟨i, -, rfl⟩ := List.mem_map.mp hline
    exact sheetLine_blank (Nat.zero_le _)
  rw [window, hlines]
  rfl

/-- One line further down the window shows a line that is blank as yet. -/
theorem scrollUp_window (hrows : 0 < rows) (h : text.length ≤ (rows + above) * cols) :
    (window rows cols text above row col).scrollUp 1
      = window rows cols text (above + 1) row col := by
  obtain ⟨rows, rfl⟩ := Nat.exists_eq_succ_of_ne_zero (Nat.ne_of_gt hrows)
  have hlast : sheetLine cols text (rows + (above + 1)) = List.replicate cols .blank :=
    sheetLine_blank (by rwa [show rows + (above + 1) = rows + 1 + above by omega])
  have hmin : min 1 (rows + 1) = 1 := by omega
  have hlines : ((List.range (rows + 1)).map fun i => sheetLine cols text (i + above)).drop 1
        ++ [List.replicate cols .blank]
      = (List.range (rows + 1)).map fun i => sheetLine cols text (i + (above + 1)) := by
    rw [List.range_succ_eq_map, List.map_cons, List.drop_succ_cons, List.drop_zero,
      ← List.range_succ_eq_map, List.range_succ, List.map_append, List.map_map, List.map_singleton,
      hlast]
    refine congrArg (· ++ _) (List.map_congr_left fun i _ => ?_)
    exact congrArg (sheetLine cols text) (by simp only [Nat.succ_eq_add_one]; omega)
  rw [scrollUp, rows_window, hmin]
  show ({ lines := _ ++ [List.replicate cols .blank], cols, row, col } : Grid) = _
  rw [window, window, hlines]

variable (hcols : 0 < cols) (b : UInt8) (hrow : row + above = text.length / cols)
  (hcol : col = text.length % cols)
include hcols hrow hcol

/-- What is drawn where the text has come to is one more byte on the sheet. -/
theorem modify_window :
    (window rows cols text above row col).lines.modify row
        (·.set col { char := Bytes.toChar b })
      = (window rows cols (text ++ [b]) above row col).lines := by
  refine List.ext_getElem? fun i => ?_
  rw [List.getElem?_modify, window, window, List.getElem?_map, List.getElem?_map]
  by_cases hi : i < rows
  · rw [List.getElem?_range hi]
    simp only [Option.map_some, Option.map_eq_map]
    by_cases hcursor : row = i
    · rw [if_pos hcursor, ← hcursor, hrow, hcol, sheetLine_concat hcols]
    · rw [if_neg hcursor, sheetLine_concat_of_ne hcols text b (by omega)]
  · rw [List.getElem?_eq_none (by rw [List.length_range]; omega)]
    rfl

/-- A character drawn where the text has come to: in the middle of a line, at the margin above the
last line, and at the margin of the last line, where the window goes down. -/
theorem writeChar_window (hlast : row < rows) :
    (window rows cols text above row col).writeChar (Bytes.toChar b)
      = if col + 1 < cols then window rows cols (text ++ [b]) above row (col + 1)
        else if row + 1 < rows then window rows cols (text ++ [b]) above (row + 1) 0
        else window rows cols (text ++ [b]) (above + 1) row 0 := by
  have hdrawn : ({ window rows cols text above row col with
        lines := (window rows cols text above row col).lines.modify row
          (·.set col { char := Bytes.toChar b }) } : Grid)
      = window rows cols (text ++ [b]) above row col := by
    rw [modify_window hcols b hrow hcol]
    rfl
  refine (writeChar_eq ..).trans ((congrArg advance hdrawn).trans ?_)
  have hlt := Nat.mod_lt text.length hcols
  rw [advance, rows_window]
  show (if col + 1 < cols then window rows cols (text ++ [b]) above row (col + 1)
    else if row + 1 < rows then window rows cols (text ++ [b]) above (row + 1) 0
    else { (window rows cols (text ++ [b]) above row col).scrollUp 1 with col := 0 }) = _
  by_cases hmargin : col + 1 < cols
  · rw [if_pos hmargin, if_pos hmargin]
  · rw [if_neg hmargin, if_neg hmargin]
    by_cases hbottom : row + 1 < rows
    · rw [if_pos hbottom, if_pos hbottom]
    · -- the text ends with the line of the cursor, which is the last of the window
      have hfits : (text ++ [b]).length ≤ (rows + above) * cols := by
        have hposition := Nat.div_add_mod' text.length cols
        have hbelow : rows + above = text.length / cols + 1 := by omega
        rw [List.length_append, List.length_singleton, hbelow, Nat.succ_mul]
        omega
      rw [if_neg hbottom, if_neg hbottom, scrollUp_window (by omega) hfits]
      rfl

end

/-! ## Plain text -/

/-- How many lines of the sheet are above the window when a text of some length has been written. -/
def linesAbove (rows cols length : Nat) : Nat := length / cols - (rows - 1)

/-- The window on the sheet of a text, with the cursor after the text. -/
def typed (rows cols : Nat) (text : Bytes) : Grid :=
  window rows cols text (linesAbove rows cols text.length)
    (text.length / cols - linesAbove rows cols text.length) (text.length % cols)

/-- **One more character is one more byte of the text.** -/
theorem writeChar_typed {rows cols : Nat} (hrows : 0 < rows) (hcols : 0 < cols) (text : Bytes)
    (b : UInt8) :
    (typed rows cols text).writeChar (Bytes.toChar b) = typed rows cols (text ++ [b]) := by
  have hlength : (text ++ [b]).length = text.length + 1 := List.length_append
  have hlt := Nat.mod_lt text.length hcols
  have hlast : text.length / cols - linesAbove rows cols text.length < rows := by
    rw [linesAbove]
    generalize text.length / cols = line
    omega
  have hrow : text.length / cols - linesAbove rows cols text.length
      + linesAbove rows cols text.length = text.length / cols :=
    Nat.sub_add_cancel (Nat.sub_le _ _)
  rw [typed, writeChar_window hcols b hrow rfl hlast, typed, hlength]
  by_cases hmargin : text.length % cols + 1 < cols
  · obtain ⟨hdiv, hmod⟩ := succ_div_mod hmargin
    rw [if_pos hmargin, linesAbove, linesAbove, hdiv, hmod]
  · obtain ⟨hdiv, hmod⟩ := succ_div_mod_margin hcols (show text.length % cols + 1 = cols by omega)
    rw [if_neg hmargin, linesAbove, linesAbove, hdiv, hmod]
    generalize text.length / cols = line
    by_cases hbottom : line - (line - (rows - 1)) + 1 < rows
    · have habove : line + 1 - (rows - 1) = line - (rows - 1) := by omega
      have hnext : line + 1 - (line - (rows - 1)) = line - (line - (rows - 1)) + 1 := by omega
      rw [if_pos hbottom, habove, hnext]
    · have habove : line + 1 - (rows - 1) = line - (rows - 1) + 1 := by omega
      have hsame : line + 1 - (line - (rows - 1) + 1) = line - (line - (rows - 1)) := by omega
      rw [if_neg hbottom, habove, hsame]

end Grid

namespace Display

/-- A byte of plain text is written. -/
theorem feed_plain {d : Display} (hmode : d.interpreter.mode = .ground) {b : UInt8}
    (heffector : isEffector b = false) (hesc : b ≠ 0x1B) :
    d.feed b = ({ d with grid := d.grid.writeChar (Bytes.toChar b) }, []) := by
  rw [feed_ground hmode, Interpreter.ground_text _ _ heffector hesc]
  rfl

/-- **Plain text on a blank terminal is the window** that its last line is in: by induction on the
text from its end, since it is the last byte that is drawn on what the others have led to. -/
theorem feedAll_plain (rows cols : Nat) {text : Bytes}
    (htext : ∀ b ∈ text, isEffector b = false ∧ b ≠ 0x1B) :
    (blank rows cols).feedAll text
      = ({ grid := .typed (max rows 1) (max cols 1) text }, []) := by
  induction text using List.reverseRecOn with
  | nil =>
    have hblank : Grid.typed (max rows 1) (max cols 1) [] = .blank rows cols := by
      rw [← Grid.window_nil, Grid.typed, Grid.linesAbove, List.length_nil, Nat.zero_div,
        Nat.zero_mod, Nat.zero_sub]
    rw [feedAll_nil, hblank]
    rfl
  | append_singleton text b ih =>
    obtain ⟨htext, hlast⟩ := List.forall_mem_append.mp htext
    obtain ⟨heffector, hesc⟩ := hlast b List.mem_cons_self
    have hfeed := feed_plain (d := { grid := .typed (max rows 1) (max cols 1) text }) rfl heffector
      hesc
    rw [feedAll_append, ih htext, feedAll_cons_of hfeed (feedAll_nil _)]
    dsimp only
    rw [Grid.writeChar_typed (by omega) (by omega)]
    rfl

/-- **The layout of plain text.**  On a new terminal, a text without control characters leaves the
cell at a row and a column with the byte of the text that many lines and columns on, counted from
the first line that has not gone, and blank if the text has no such byte.  The cursor is right after
the text, and the terminal has answered nothing. -/
theorem plain_layout (rows cols : Nat) {text : Bytes}
    (htext : ∀ b ∈ text, isEffector b = false ∧ b ≠ 0x1B) :
    let out := (blank rows cols).feedAll text
    let height := max rows 1
    let width := max cols 1
    let scrolls := text.length / width - (height - 1)
    (∀ i j, out.1.grid.cell? i j =
      if i < height ∧ j < width then
        some (match text[(i + scrolls) * width + j]? with
          | some b => { char := Bytes.toChar b }
          | none => .blank)
      else none) ∧
      out.1.grid.row = text.length / width - scrolls ∧
      out.1.grid.col = text.length % width ∧
      out.1.grid.rows = height ∧ out.1.grid.cols = width ∧
      out.1.interpreter = {} ∧ out.2 = [] := by
  intro out height width scrolls
  have hout : out = ({ grid := .typed height width text }, []) := feedAll_plain rows cols htext
  rw [hout]
  exact ⟨Grid.cell?_window, rfl, rfl, Grid.rows_window, rfl, rfl, rfl⟩

/-- Eight bytes, the last of them beyond ASCII, on two lines of three, of which the first has gone;
and a byte on a screen of one cell, which it leaves at once. -/
theorem plain_layout_scrolled :
    let text : Bytes := [0x61, 0x62, 0x63, 0x64, 0x65, 0x66, 0x67, 0xFF]
    let g := ((blank 2 3).feedAll text).1.grid
    let single := ((blank 1 1).feedAll [0x61]).1.grid
    (g.cell? 0 0 = some { char := 'd' } ∧ g.cell? 1 1 = some { char := 'ÿ' } ∧
      g.cell? 1 2 = some .blank ∧ g.cell? 2 0 = none ∧ g.row = 1 ∧ g.col = 2) ∧
      single.cell? 0 0 = some .blank ∧ single.row = 0 ∧ single.col = 0 := by
  intro text g single
  have htext : ∀ b ∈ text, isEffector b = false ∧ b ≠ 0x1B := by
    simp only [text, List.forall_mem_cons]
    exact ⟨by decide, by decide, by decide, by decide, by decide, by decide, by decide, by decide,
      List.forall_mem_nil _⟩
  have hsingleton : ∀ b ∈ [(0x61 : UInt8)], isEffector b = false ∧ b ≠ 0x1B :=
    List.forall_mem_singleton.mpr (by decide)
  obtain ⟨hcells, hrow, hcol, -⟩ := plain_layout 2 3 htext
  obtain ⟨hsingle, hrow', hcol', -⟩ := plain_layout 1 1 hsingleton
  refine ⟨⟨(hcells 0 0).trans ?_, (hcells 1 1).trans ?_, (hcells 1 2).trans ?_,
    (hcells 2 0).trans ?_, hrow.trans ?_, hcol.trans ?_⟩, (hsingle 0 0).trans ?_, hrow'.trans ?_,
    hcol'.trans ?_⟩
  all_goals decide

end Display

end BoardConsole.Terminal
