import BoardConsole.Proofs.Bounds
import BoardConsole.Proofs.PlainText

/-!
# The end of a log

A grid shows the end of a list of lines: the last of them, as many as there is room for, and blank
lines below them if there is room for more.  The cursor is on the last line of the list.  Then
whatever is written is added to the list, and where the grid has to wrap and to scroll is forgotten.

- `Grid.tail`: a grid that shows the end of a log.
- `Grid.nextRow_tail`: going on to the next line adds a blank one.
- `Grid.writeChar_tail`: a character is drawn in the last line, which may be followed by another.
- `cellRows`: cells laid out in rows of one width.
- `Grid.write_tail`: **a text adds its rows**, by induction on the text from its end.
-/

namespace BoardConsole.Terminal

theorem getElem?_fit {α : Type} (n : Nat) (filler : α) (xs : List α) (i : Nat) :
    (fit n filler xs)[i]? = if i < n then some (xs[i]?.getD filler) else none := by
  rw [fit, List.getElem?_append, List.length_take]
  by_cases hi : i < n
  · rw [if_pos hi]
    by_cases hx : i < xs.length
    · rw [if_pos (by omega), List.getElem?_take_of_lt hi, List.getElem?_eq_getElem hx,
        Option.getD_some]
    · rw [if_neg (by omega), List.getElem?_replicate_of_lt (by omega),
        List.getElem?_eq_none (Nat.le_of_not_lt hx), Option.getD_none]
  · rw [if_neg hi, if_neg (by omega), List.getElem?_eq_none]
    rw [List.length_replicate]
    omega

theorem fit_replicate {α : Type} (m n : Nat) (filler : α) :
    fit n filler (List.replicate m filler) = List.replicate n filler := by
  refine List.eq_replicate_iff.mpr ⟨fit_length _ _ _, fun x hx => ?_⟩
  rcases List.mem_append.mp hx with hold | hnew
  · exact List.eq_of_mem_replicate (List.mem_of_mem_take hold)
  · exact List.eq_of_mem_replicate hnew

namespace Grid

/-! ## A window on the end of a log -/

/-- The grid showing the end of a log, with the cursor at a column of the log's last line. -/
def tail (g : Grid) (log : List (List Cell)) (col : Nat) : Grid :=
  { g with
    lines := fit g.rows g.blankLine (log.drop (log.length - g.rows))
    row := min log.length g.rows - 1
    col }

section

variable {g : Grid} {log : List (List Cell)} {col : Nat}

theorem rows_tail : (g.tail log col).rows = g.rows := fit_length _ _ _

theorem getElem?_tail (i : Nat) : (g.tail log col).lines[i]?
    = if i < g.rows then some (log[i + (log.length - g.rows)]?.getD g.blankLine) else none := by
  rw [tail, getElem?_fit, List.getElem?_drop, Nat.add_comm]

/-- The cursor at the start of its row. -/
theorem moveCursor_tail : (g.tail log col).moveCursor (g.tail log col).row 0 = g.tail log 0 := by
  have hrow : (g.tail log col).row = min log.length g.rows - 1 := rfl
  show ({ g.tail log col with row := min _ _, col := min 0 _ } : Grid) = _
  rw [rows_tail, hrow, Nat.zero_min, Nat.min_eq_left (by omega)]
  rfl

/-- Of a grid that shows the end of a log only the size and the pen matter. -/
theorem tail_congr {g' : Grid} (hrows : g.rows = g'.rows) (hcols : g.cols = g'.cols)
    (hpen : g.pen = g'.pen) (hbells : g.bells = g'.bells) : g.tail log col = g'.tail log col := by
  unfold tail blankLine
  rw [hrows, hcols, hpen, hbells]

/-- A grid with the lines of the end of a log, and with the cursor in the last, shows the end of the
log. -/
theorem eq_tail {g' : Grid} (hframe : g' = { g with lines := g'.lines, row := g'.row, col })
    (hrow : g'.row = min log.length g.rows - 1)
    (hlines : ∀ i : Nat, g'.lines[i]?
      = if i < g.rows then some (log[i + (log.length - g.rows)]?.getD g.blankLine) else none) :
    g' = g.tail log col := by
  have hsame : g'.lines = (g.tail log col).lines := by
    refine List.ext_getElem? fun i => ?_
    rw [hlines, getElem?_tail]
  rw [hframe, hsame, hrow]
  rfl

end

/-- The cursor on the next line, for which the contents may have to move up. -/
def nextRow (g : Grid) : Grid :=
  if g.row + 1 < g.rows then { g with row := g.row + 1, col := 0 }
  else { g.scrollUp 1 with col := 0 }

theorem advance_eq (g : Grid) :
    g.advance = if g.col + 1 < g.cols then { g with col := g.col + 1 } else g.nextRow := rfl

/-- The contents moved up by one line, seen line by line. -/
theorem getElem?_scrollUp_one (g : Grid) (i : Nat) : (g.scrollUp 1).lines[i]?
    = if i + 1 < g.rows then g.lines[i + 1]?
      else if i < g.rows then some g.blankLine else none := by
  have hlength : (g.lines.drop 1).length = g.rows - 1 := List.length_drop
  rw [scrollUp, List.getElem?_append, hlength, List.getElem?_drop, Nat.add_comm 1 i]
  by_cases hi : i + 1 < g.rows
  · rw [if_pos (by omega), if_pos hi]
  · rw [if_neg (by omega), if_neg hi, List.getElem?_replicate]
    by_cases hlast : i < g.rows
    · rw [if_pos (by omega), if_pos hlast]
    · rw [if_neg (by omega), if_neg hlast]

section

variable {g : Grid} (hrows : 0 < g.rows)
include hrows

/-- **Going on to the next line adds a blank line to the log**, whether or not there is room. -/
theorem nextRow_tail {log : List (List Cell)} (hlog : log ≠ []) (col : Nat) :
    (g.tail log col).nextRow = g.tail (log ++ [g.blankLine]) 0 := by
  have hlength : 0 < log.length := List.length_pos_iff.mpr hlog
  have hnew : (log ++ [g.blankLine]).length = log.length + 1 := List.length_append
  have hrow : (g.tail log col).row = min log.length g.rows - 1 := rfl
  -- below the log the lines have been blank before
  have hadded : ∀ i : Nat,
      (log ++ [g.blankLine])[i]?.getD g.blankLine = log[i]?.getD g.blankLine := by
    intro i
    rw [List.getElem?_append, List.getElem?_singleton]
    by_cases hi : i < log.length
    · rw [if_pos hi]
    · rw [if_neg hi, List.getElem?_eq_none (Nat.le_of_not_lt hi)]
      split <;> rfl
  unfold nextRow
  rw [rows_tail, hrow]
  by_cases hroom : log.length < g.rows
  · have hnext : min log.length g.rows - 1 + 1 = min (log ++ [g.blankLine]).length g.rows - 1 := by
      omega
    rw [if_pos (by omega)]
    refine eq_tail rfl hnext fun i => ?_
    rw [getElem?_tail, hnew, hadded, show log.length - g.rows = 0 by omega,
      show log.length + 1 - g.rows = 0 by omega]
  · rw [if_neg (by omega)]
    refine eq_tail rfl (hrow.trans (by omega)) fun i => ?_
    rw [getElem?_scrollUp_one, rows_tail, getElem?_tail, hnew, hadded,
      show i + (log.length + 1 - g.rows) = i + 1 + (log.length - g.rows) by omega]
    by_cases hi : i + 1 < g.rows
    · rw [if_pos hi, if_pos hi, if_pos (by omega)]
    · rw [if_neg hi, List.getElem?_eq_none (l := log) (by omega)]
      rfl

variable (log : List (List Cell)) (line : List Cell) (col : Nat)

/-- What is done to the line of the cursor is done to the last line of the log. -/
theorem modify_tail (f : List Cell → List Cell) :
    { g.tail (log ++ [line]) col with
      lines := (g.tail (log ++ [line]) col).lines.modify (g.tail (log ++ [line]) col).row f }
      = g.tail (log ++ [f line]) col := by
  have hlength : ∀ last : List Cell, (log ++ [last]).length = log.length + 1 := fun last =>
    List.length_append
  have hrow : (g.tail (log ++ [line]) col).row = min (log.length + 1) g.rows - 1 := by
    rw [← hlength line]
    rfl
  refine eq_tail rfl (by rw [hlength]; exact hrow) fun i => ?_
  rw [List.getElem?_modify, getElem?_tail, hrow, hlength, hlength]
  by_cases hi : i < g.rows
  · rw [if_pos hi, if_pos hi, Option.map_eq_map, Option.map_some]
    by_cases hlast : min (log.length + 1) g.rows - 1 = i
    · have hindex : i + (log.length + 1 - g.rows) = log.length := by omega
      rw [if_pos hlast, hindex, List.getElem?_concat_length, List.getElem?_concat_length]
      rfl
    · rw [if_neg hlast, List.getElem?_append, List.getElem?_append, List.getElem?_singleton,
        List.getElem?_singleton]
      by_cases hold : i + (log.length + 1 - g.rows) < log.length
      · rw [if_pos hold, if_pos hold]
      · rw [if_neg hold, if_neg hold, if_neg (by omega), if_neg (by omega)]
  · rw [if_neg hi, if_neg hi]
    rfl

/-- **A character is drawn in the last line of the log.**  At the margin a blank line follows. -/
theorem writeChar_tail (char : Char) :
    (g.tail (log ++ [line]) col).writeChar char
      = if col + 1 < g.cols then g.tail (log ++ [line.set col ⟨char, g.pen⟩]) (col + 1)
        else g.tail (log ++ [line.set col ⟨char, g.pen⟩] ++ [g.blankLine]) 0 := by
  have hdrawn := modify_tail hrows log line col (·.set col ⟨char, g.pen⟩)
  refine (writeChar_eq ..).trans ((congrArg advance hdrawn).trans ?_)
  rw [advance_eq]
  show (if col + 1 < g.cols then g.tail (log ++ [line.set col ⟨char, g.pen⟩]) (col + 1)
    else (g.tail (log ++ [line.set col ⟨char, g.pen⟩]) col).nextRow) = _
  rw [nextRow_tail hrows (List.concat_ne_nil _ _)]

end

end Grid

/-! ## Text in rows -/

/-- The first rows that cells are laid out in, padded with blanks to the width. -/
def cellRows (width count : Nat) (cells : List Cell) : List (List Cell) :=
  (List.range count).map fun i => fit width .blank (cells.drop (i * width))

section

variable {width : Nat} (count : Nat) (cells : List Cell)

theorem cellRows_succ : cellRows width (count + 1) cells
    = cellRows width count cells ++ [fit width .blank (cells.drop (count * width))] := by
  rw [cellRows, List.range_succ, List.map_append, List.map_singleton]
  rfl

/-- Where there are no more cells the rows are blank. -/
theorem fit_drop_of_le (h : cells.length ≤ count * width) :
    fit width .blank (cells.drop (count * width)) = List.replicate width .blank := by
  rw [List.drop_eq_nil_of_le h, fit, List.take_nil, List.nil_append, List.length_nil, Nat.sub_zero]

variable {count} {cells} (cell : Cell)

/-- One more cell after rows that are full does not change them. -/
theorem cellRows_concat (h : count * width ≤ cells.length) :
    cellRows width count (cells ++ [cell]) = cellRows width count cells := by
  refine List.map_congr_left fun i hi => ?_
  have hrow : i * width + width ≤ cells.length := by
    rw [← Nat.succ_mul]
    exact Nat.le_trans (Nat.mul_le_mul_right width (List.mem_range.mp hi)) h
  refine List.ext_getElem? fun j => ?_
  rw [getElem?_fit, getElem?_fit, List.getElem?_drop, List.getElem?_drop, List.getElem?_append]
  by_cases hj : j < width
  · rw [if_pos hj, if_pos hj, if_pos (by omega)]
  · rw [if_neg hj, if_neg hj]

/-- One more cell in a row that has room for it stands right behind the others. -/
theorem fit_concat (hcells : count * width ≤ cells.length)
    (hroom : cells.length - count * width < width) :
    fit width .blank ((cells ++ [cell]).drop (count * width))
      = (fit width .blank (cells.drop (count * width))).set (cells.length - count * width)
          cell := by
  refine List.ext_getElem? fun j => ?_
  rw [List.getElem?_set, getElem?_fit, getElem?_fit, fit_length, List.getElem?_drop,
    List.getElem?_drop, List.getElem?_append, List.getElem?_singleton]
  by_cases hnew : cells.length - count * width = j
  · rw [if_pos hnew, if_pos (by omega), if_pos hroom, if_neg (by omega), if_pos (by omega)]
    rfl
  · rw [if_neg hnew]
    by_cases hold : count * width + j < cells.length
    · rw [if_pos hold]
    · have hbehind : ¬ count * width + j - cells.length = 0 := by omega
      rw [if_neg hold, if_neg hbehind, List.getElem?_eq_none (Nat.le_of_not_lt hold)]

end

namespace Grid

/-- **A text adds its rows to the log**, from the blank line that the log ends with.  The last of
them is blank if the text fills those before it. -/
theorem write_tail {g : Grid} (hrows : 0 < g.rows) (hcols : 0 < g.cols) (log : List (List Cell))
    (text : List Char) :
    (g.tail (log ++ [g.blankLine]) 0).applyAll (text.map .write)
      = g.tail (log ++ cellRows g.cols (text.length / g.cols + 1) (text.map (Cell.mk · g.pen)))
          (text.length % g.cols) := by
  induction text using List.reverseRecOn with
  | nil =>
    rw [List.length_nil, Nat.zero_div, Nat.zero_mod, cellRows_succ,
      fit_drop_of_le _ _ (Nat.zero_le _)]
    rfl
  | append_singleton text char ih =>
    generalize hcells : text.map (Cell.mk · g.pen) = cells at ih
    have hlength : cells.length = text.length := by rw [← hcells, List.length_map]
    have hnew : (text ++ [char]).map (Cell.mk · g.pen) = cells ++ [⟨char, g.pen⟩] := by
      rw [List.map_append, hcells, List.map_singleton]
    have hlt := Nat.mod_lt text.length hcols
    have hposition := Nat.div_add_mod' text.length g.cols
    have hfull : text.length / g.cols * g.cols ≤ cells.length := by omega
    have hcol : cells.length - text.length / g.cols * g.cols = text.length % g.cols := by omega
    -- the character is drawn in the last row, and the rows before it are full
    have hdrawn : log ++ cellRows g.cols (text.length / g.cols) cells
          ++ [(fit g.cols .blank (cells.drop (text.length / g.cols * g.cols))).set
            (text.length % g.cols) ⟨char, g.pen⟩]
        = log ++ cellRows g.cols (text.length / g.cols + 1) (cells ++ [⟨char, g.pen⟩]) := by
      rw [cellRows_succ, cellRows_concat _ hfull, fit_concat _ hfull (by omega), hcol,
        List.append_assoc]
    rw [List.map_append, applyAll_append, ih, cellRows_succ, ← List.append_assoc]
    show (g.tail _ _).writeChar char = _
    rw [writeChar_tail hrows, hdrawn, hnew, List.length_append, List.length_singleton]
    by_cases hmargin : text.length % g.cols + 1 < g.cols
    · obtain ⟨hdiv, hmod⟩ := succ_div_mod hmargin
      rw [if_pos hmargin, hdiv, hmod]
    · obtain ⟨hdiv, hmod⟩ := succ_div_mod_margin hcols
        (show text.length % g.cols + 1 = g.cols by omega)
      have hend : (cells ++ [Cell.mk char g.pen]).length ≤ (text.length / g.cols + 1) * g.cols := by
        rw [List.length_append, List.length_singleton, Nat.succ_mul]
        omega
      rw [if_neg hmargin, hdiv, hmod, cellRows_succ (text.length / g.cols + 1),
        fit_drop_of_le _ _ hend, List.append_assoc]
      rfl

end Grid

end BoardConsole.Terminal
