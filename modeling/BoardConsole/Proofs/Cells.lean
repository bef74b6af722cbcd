import BoardConsole.Proofs.Bounds

/-!
# Grids by their cells

A grid is known by what it shows at every row and column, and so is what is done to it: the cells
afterwards are a function of the cells before, and the cursor, the pen and the size stay.

- `Grid.look`: the cell at a row and a column, and blank outside the grid.
- `Grid.withCells`: the grid with the cells of a function.
- `Grid.withCells_look`: a sound grid is the grid with the cells that it shows.
- `Grid.scrollUp_withCells` and its like: **each operation on cells, as one on functions**.
-/

namespace BoardConsole.Terminal

/-! ## Lines -/

theorem getElem?_map_range {α : Type} (n : Nat) (f : Nat → α) (i : Nat) :
    ((List.range n).map f)[i]? = if i < n then some (f i) else none := by
  rw [List.getElem?_map]
  by_cases hi : i < n
  · rw [List.getElem?_range hi, Option.map_some, if_pos hi]
  · rw [List.getElem?_eq_none (by rw [List.length_range]; omega), Option.map_none, if_neg hi]

/-- A line with the cells of a function. -/
def lineOf (cols : Nat) (cell : Nat → Cell) : List Cell := (List.range cols).map cell

section Line

variable {cols : Nat} {cell cell' : Nat → Cell}

theorem length_lineOf : (lineOf cols cell).length = cols := by
  rw [lineOf, List.length_map, List.length_range]

theorem getElem?_lineOf (j : Nat) :
    (lineOf cols cell)[j]? = if j < cols then some (cell j) else none :=
  getElem?_map_range cols cell j

/-- A line with the cells of a function where it has any is the line of that function. -/
theorem eq_lineOf {cells : List Cell} (hlength : cells.length = cols)
    (hcells : ∀ j < cols, cells[j]? = some (cell j)) : cells = lineOf cols cell := by
  refine List.ext_getElem? fun j => ?_
  rw [getElem?_lineOf]
  by_cases hj : j < cols
  · rw [if_pos hj, hcells j hj]
  · rw [if_neg hj, List.getElem?_eq_none (by omega)]

theorem lineOf_congr (h : ∀ j < cols, cell j = cell' j) : lineOf cols cell = lineOf cols cell' :=
  List.map_congr_left fun j hj => h j (List.mem_range.mp hj)

theorem replicate_eq_lineOf : List.replicate cols .blank = lineOf cols fun _ => .blank :=
  eq_lineOf List.length_replicate fun j hj => by rw [List.getElem?_replicate, if_pos hj]

theorem blankBetween_lineOf (first last : Nat) :
    blankBetween first last (lineOf cols cell)
      = lineOf cols fun j => if first ≤ j ∧ j < last then .blank else cell j := by
  refine eq_lineOf ((blankBetween_length ..).trans length_lineOf) fun j hj => ?_
  rw [blankBetween, List.getElem?_mapIdx, getElem?_lineOf, if_pos hj]
  rfl

/-- A blank put in, and the last cell gone: behind it every cell is the one to its left. -/
theorem insertIdx_lineOf {col : Nat} (hcol : col < cols) :
    (lineOf cols cell).dropLast.insertIdx col .blank
      = lineOf cols fun j =>
          if col ≤ j then if col + 1 ≤ j then cell (j - 1) else .blank else cell j := by
  have hlength : (lineOf cols cell).dropLast.length = cols - 1 := by
    rw [List.length_dropLast, length_lineOf]
  have hcells : ∀ k < cols - 1, (lineOf cols cell).dropLast[k]? = some (cell k) := by
    intro k hk
    rw [List.getElem?_dropLast, length_lineOf, if_pos hk, getElem?_lineOf, if_pos (by omega)]
  refine eq_lineOf ?_ fun j hj => ?_
  · rw [List.length_insertIdx_of_le_length (by omega), hlength]
    omega
  · rw [List.getElem?_insertIdx]
    by_cases hleft : j < col
    · rw [if_pos hleft, if_neg (by omega), hcells j (by omega)]
    · by_cases hat : j = col
      · rw [if_neg hleft, if_pos hat, if_pos (by omega), if_pos (by omega), if_neg (by omega)]
      · rw [if_neg hleft, if_neg hat, if_pos (by omega), if_pos (by omega),
          hcells (j - 1) (by omega)]

/-- A cell taken out, and a blank at the end: from there on every cell is the one to its right. -/
theorem eraseIdx_lineOf {col : Nat} (hcol : col < cols) :
    (lineOf cols cell).eraseIdx col ++ [.blank]
      = lineOf cols fun j =>
          if col ≤ j then if j + 1 < cols then cell (j + 1) else .blank else cell j := by
  have hlength : ((lineOf cols cell).eraseIdx col).length = cols - 1 := by
    rw [List.length_eraseIdx_of_lt (by rw [length_lineOf]; exact hcol), length_lineOf]
  refine eq_lineOf ?_ fun j hj => ?_
  · rw [List.length_append, hlength, List.length_singleton]
    omega
  · by_cases hlast : j + 1 < cols
    · rw [List.getElem?_append_left (by omega), List.getElem?_eraseIdx, getElem?_lineOf,
        getElem?_lineOf, if_pos hj, if_pos hlast, if_pos hlast]
      by_cases hleft : j < col
      · rw [if_pos hleft, if_neg (by omega)]
      · rw [if_neg hleft, if_pos (by omega)]
    · rw [List.getElem?_append_right (by omega), hlength, show j - (cols - 1) = 0 by omega,
        if_pos (by omega), if_neg hlast]
      rfl

end Line

/-! ## Parts of the screen -/

/-- A column is in the part of the cursor's line, with the cursor at another column. -/
def LineErase.covers : LineErase → Nat → Nat → Bool
  | .toEnd, col, j => col ≤ j
  | .toCursor, col, j => j < col
  | .all, _, _ => true

/-- A row and a column are in the part of the screen, with the cursor at others. -/
def DisplayErase.covers : DisplayErase → Nat → Nat → Nat → Nat → Bool
  | .toEnd, row, col, i, j => row < i || (i = row && col ≤ j)
  | .all, _, _, _, _ => true

/-! ## Grids -/

namespace Grid

/-- The cell at a row and a column, blank where there is none. -/
def look (g : Grid) (row col : Nat) : Cell := (g.cell? row col).getD .blank

/-- The grid with the cells of a function of row and column. -/
def withCells (g : Grid) (cell : Nat → Nat → Cell) : Grid :=
  { g with lines := (List.range g.rows).map fun i => lineOf g.cols (cell i) }

variable {g : Grid} {cell cell' : Nat → Nat → Cell}

@[simp] theorem rows_withCells : (g.withCells cell).rows = g.rows := by
  rw [rows, withCells, List.length_map, List.length_range]

@[simp] theorem cols_withCells : (g.withCells cell).cols = g.cols := rfl

@[simp] theorem row_withCells : (g.withCells cell).row = g.row := rfl

@[simp] theorem col_withCells : (g.withCells cell).col = g.col := rfl

theorem getElem?_withCells (i : Nat) :
    (g.withCells cell).lines[i]? = if i < g.rows then some (lineOf g.cols (cell i)) else none :=
  getElem?_map_range g.rows _ i

/-- **The cells are those of the function**, and there are no others. -/
theorem cell?_withCells (g : Grid) (cell : Nat → Nat → Cell) (i j : Nat) :
    (g.withCells cell).cell? i j = if i < g.rows ∧ j < g.cols then some (cell i j) else none := by
  rw [cell?, getElem?_withCells]
  by_cases hi : i < g.rows
  · rw [if_pos hi, Option.bind_some, getElem?_lineOf]
    by_cases hj : j < g.cols
    · rw [if_pos hj, if_pos ⟨hi, hj⟩]
    · rw [if_neg hj, if_neg fun h => hj h.2]
  · rw [if_neg hi, if_neg fun h => hi h.1]
    rfl

/-- A grid that is like another but for its lines, and whose lines have the cells of a function, is
the other with those cells. -/
theorem eq_withCells {g' : Grid} (hframe : g' = { g with lines := g'.lines })
    (hrows : g'.rows = g.rows)
    (hlines : ∀ i < g.rows, g'.lines[i]? = some (lineOf g.cols (cell i))) :
    g' = g.withCells cell := by
  have heq : g'.lines = (g.withCells cell).lines := by
    refine List.ext_getElem? fun i => ?_
    rw [getElem?_withCells]
    by_cases hi : i < g.rows
    · rw [if_pos hi, hlines i hi]
    · rw [if_neg hi, List.getElem?_eq_none (by rw [← hrows] at hi; exact Nat.le_of_not_lt hi)]
  rw [hframe, heq]
  rfl

theorem withCells_congr (h : ∀ i < g.rows, ∀ j < g.cols, cell i j = cell' i j) :
    g.withCells cell = g.withCells cell' := by
  refine eq_withCells rfl rows_withCells fun i hi => ?_
  rw [getElem?_withCells, if_pos hi, lineOf_congr (h i hi)]

/-- **A sound grid is the grid with the cells that it shows.** -/
theorem withCells_look (h : g.Sound) : g.withCells g.look = g := by
  symm
  refine eq_withCells rfl rfl fun i hi => ?_
  have hline := List.getElem?_eq_getElem hi
  rw [hline]
  refine congrArg some (eq_lineOf (h.wide _ (List.getElem_mem hi)) fun j hj => ?_)
  have hlength : j < g.lines[i].length := by
    rw [h.wide _ (List.getElem_mem hi)]
    exact hj
  have hcell : g.lines[i][j]? = some g.lines[i][j] := List.getElem?_eq_getElem hlength
  rw [look, cell?, hline, Option.bind_some, hcell, Option.getD_some]

/-- The cells of a sound grid. -/
theorem Sound.cell?_eq (h : g.Sound) (i j : Nat) :
    g.cell? i j = if i < g.rows ∧ j < g.cols then some (g.look i j) else none := by
  have hcell := cell?_withCells g g.look i j
  rw [withCells_look h] at hcell
  exact hcell

/-- Outside a sound grid everything is blank. -/
theorem Sound.look_outside (h : g.Sound) {i j : Nat} (hout : g.rows ≤ i ∨ g.cols ≤ j) :
    g.look i j = .blank := by
  rw [look, h.cell?_eq, if_neg (by omega)]
  rfl

/-- So a test whether a cell is inside is no test at all. -/
theorem Sound.ite_look (h : g.Sound) {i j : Nat} {inside : Prop} [Decidable inside]
    (hout : ¬ inside → g.rows ≤ i ∨ g.cols ≤ j) :
    (if inside then g.look i j else .blank) = g.look i j := by
  by_cases hinside : inside
  · rw [if_pos hinside]
  · rw [if_neg hinside, h.look_outside (hout hinside)]

/-! ### Operations -/

variable (g cell)

/-- One line changed. -/
theorem modify_withCells {r : Nat} {change : List Cell → List Cell} (cell' : Nat → Nat → Cell)
    (h : change (lineOf g.cols (cell r)) = lineOf g.cols (cell' r)) :
    { g.withCells cell with lines := (g.withCells cell).lines.modify r change }
      = g.withCells fun i j => if i = r then cell' i j else cell i j := by
  refine eq_withCells rfl ?_ fun i hi => ?_
  · exact (List.length_modify ..).trans rows_withCells
  · rw [List.getElem?_modify, getElem?_withCells, if_pos hi]
    by_cases hr : r = i
    · subst hr
      simp [h]
    · simp [hr, Ne.symm hr]

theorem eraseLine_withCells (part : LineErase) :
    (g.withCells cell).eraseLine part
      = g.withCells fun i j => if i = g.row ∧ part.covers g.col j then .blank else cell i j := by
  have hpart : ∀ first last, (∀ j < g.cols, (first ≤ j ∧ j < last ↔ part.covers g.col j)) →
      { g.withCells cell with
        lines := (g.withCells cell).lines.modify g.row (blankBetween first last) }
        = g.withCells fun i j =>
            if i = g.row ∧ part.covers g.col j then .blank else cell i j := by
    intro first last hcovers
    refine (modify_withCells g cell (fun i j => if first ≤ j ∧ j < last then .blank else cell i j)
      (blankBetween_lineOf first last)).trans (withCells_congr fun i _ j hj => ?_)
    simp only [hcovers j hj]
    by_cases hi : i = g.row
    · simp only [hi, if_true, true_and]
    · rw [if_neg hi, if_neg fun h => hi h.1]
  cases part with
  | toEnd => exact hpart g.col g.cols fun j hj => by simp [LineErase.covers, hj]
  | toCursor => exact hpart 0 g.col fun j hj => by simp [LineErase.covers]
  | all => exact hpart 0 g.cols fun j hj => by simp [LineErase.covers, hj]

/-- The lines from one on made blank. -/
theorem blankFrom_withCells (first : Nat) :
    { g.withCells cell with
      lines := (g.withCells cell).lines.mapIdx fun i line =>
        if first ≤ i then blankBetween 0 g.cols line else line }
      = g.withCells fun i j => if first ≤ i then .blank else cell i j := by
  refine eq_withCells rfl ?_ fun i hi => ?_
  · exact List.length_mapIdx.trans rows_withCells
  · rw [List.getElem?_mapIdx, getElem?_withCells, if_pos hi, Option.map_some]
    by_cases hfirst : first ≤ i
    · simp only [hfirst, if_true, blankBetween_lineOf]
      exact congrArg some (lineOf_congr fun j hj => if_pos ⟨Nat.zero_le j, hj⟩)
    · simp only [hfirst, if_false]

theorem eraseDisplay_withCells (part : DisplayErase) :
    (g.withCells cell).eraseDisplay part
      = g.withCells fun i j => if part.covers g.row g.col i j then .blank else cell i j := by
  cases part with
  | toEnd =>
    have hbelow := blankFrom_withCells g
      (fun i j => if i = g.row ∧ LineErase.toEnd.covers g.col j then .blank else cell i j)
      (g.row + 1)
    rw [← eraseLine_withCells] at hbelow
    refine hbelow.trans (withCells_congr fun i _ j _ => ?_)
    by_cases hi : g.row < i
    · rw [if_pos (Nat.succ_le_of_lt hi), if_pos (by simp [DisplayErase.covers, hi])]
    · rw [if_neg (fun h => hi (Nat.lt_of_succ_le h))]
      simp [DisplayErase.covers, LineErase.covers, hi]
  | all =>
    refine (blankFrom_withCells g cell 0).trans (withCells_congr fun i _ j _ => ?_)
    exact if_pos (Nat.zero_le i)

/-- The contents moved up: every row is the one that many rows below. -/
theorem scrollUp_withCells (n : Nat) :
    (g.withCells cell).scrollUp n
      = g.withCells fun i j => if i + n < g.rows then cell (i + n) j else .blank := by
  have hlength : ((g.withCells cell).lines.drop n).length = g.rows - n := by
    rw [List.length_drop]
    exact congrArg (· - n) rows_withCells
  refine eq_withCells rfl ?_ fun i hi => ?_
  · rw [rows, scrollUp, List.length_append, hlength, List.length_replicate, rows_withCells]
    omega
  · rw [scrollUp, rows_withCells]
    by_cases hinside : i + n < g.rows
    · rw [List.getElem?_append_left (by omega), List.getElem?_drop, getElem?_withCells,
        if_pos (by omega), Nat.add_comm n i]
      simp only [hinside, if_true]
    · rw [List.getElem?_append_right (by omega), List.getElem?_replicate, if_pos (by omega)]
      simp only [hinside, if_false]
      exact congrArg some replicate_eq_lineOf

/-- The contents moved down: every row is the one that many rows above. -/
theorem scrollDown_withCells (n : Nat) :
    (g.withCells cell).scrollDown n
      = g.withCells fun i j => if n ≤ i then cell (i - n) j else .blank := by
  have hlength : ((g.withCells cell).lines.take (g.rows - n)).length = g.rows - n :=
    List.length_take_of_le (Nat.le_trans (Nat.sub_le ..) (Nat.le_of_eq rows_withCells.symm))
  refine eq_withCells rfl ?_ fun i hi => ?_
  · rw [rows, scrollDown, List.length_append, rows_withCells, hlength, List.length_replicate]
    omega
  · rw [scrollDown, rows_withCells]
    by_cases hinside : n ≤ i
    · rw [List.getElem?_append_right (by rw [List.length_replicate]; omega),
        List.length_replicate, List.getElem?_take_of_lt (by omega), getElem?_withCells,
        if_pos (by omega), Nat.min_eq_left (by omega)]
      simp only [hinside, if_true]
    · rw [List.getElem?_append_left (by rw [List.length_replicate]; omega),
        List.getElem?_replicate, if_pos (by omega)]
      simp only [hinside, if_false]
      exact congrArg some replicate_eq_lineOf

section Cursor

variable (hrow : g.row < g.rows)
include hrow

theorem length_above : ((g.withCells cell).lines.take g.row).length = g.row :=
  List.length_take_of_le (Nat.le_trans (Nat.le_of_lt hrow) (Nat.le_of_eq rows_withCells.symm))

/-- Blank lines put in: below them every row is the one that many rows above. -/
theorem insertLines_withCells (n : Nat) :
    (g.withCells cell).insertLines n
      = g.withCells fun i j =>
          if g.row ≤ i then if g.row + n ≤ i then cell (i - n) j else .blank else cell i j := by
  have habove : ((g.withCells cell).lines.take g.row).length = g.row := length_above g cell hrow
  have hlength : (g.withCells cell).lines.length = g.rows := rows_withCells
  refine eq_withCells rfl ?_ fun i hi => ?_
  · simp only [rows, insertLines, row_withCells, List.length_append, habove, List.length_take,
      List.length_drop, List.length_replicate, hlength] at hrow ⊢
    omega
  · simp only [insertLines, row_withCells, rows_withCells]
    have hboth : ((g.withCells cell).lines.take g.row
        ++ List.replicate (min n (g.rows - g.row)) (g.withCells cell).blankLine).length
        = g.row + min n (g.rows - g.row) := by
      rw [List.length_append, habove, List.length_replicate]
    by_cases hbelow : g.row ≤ i
    · by_cases hmoved : g.row + n ≤ i
      · rw [List.getElem?_append_right (by omega), hboth, List.getElem?_take_of_lt (by omega),
          List.getElem?_drop, getElem?_withCells, if_pos (by omega)]
        simp only [hbelow, hmoved, if_true]
        rw [show g.row + (i - (g.row + min n (g.rows - g.row))) = i - n by omega]
      · rw [List.getElem?_append_left (by omega), List.getElem?_append_right (by omega),
          List.getElem?_replicate, if_pos (by omega)]
        simp only [hbelow, hmoved, if_true, if_false]
        exact congrArg some replicate_eq_lineOf
    · rw [List.getElem?_append_left (by omega), List.getElem?_append_left (by omega),
        List.getElem?_take_of_lt (by omega), getElem?_withCells, if_pos hi]
      simp only [hbelow, if_false]

/-- Lines taken out: from there on every row is the one that many rows below. -/
theorem deleteLines_withCells (n : Nat) :
    (g.withCells cell).deleteLines n
      = g.withCells fun i j =>
          if g.row ≤ i then if i + n < g.rows then cell (i + n) j else .blank else cell i j := by
  have habove : ((g.withCells cell).lines.take g.row).length = g.row := length_above g cell hrow
  have hlength : (g.withCells cell).lines.length = g.rows := rows_withCells
  have hboth : ((g.withCells cell).lines.take g.row
      ++ (g.withCells cell).lines.drop (g.row + min n (g.rows - g.row))).length
      = g.rows - min n (g.rows - g.row) := by
    rw [List.length_append, habove, List.length_drop, hlength]
    omega
  refine eq_withCells rfl ?_ fun i hi => ?_
  · rw [rows, deleteLines, rows_withCells, List.length_append, row_withCells, hboth,
      List.length_replicate]
    omega
  · simp only [deleteLines, row_withCells, rows_withCells]
    by_cases hbelow : g.row ≤ i
    · by_cases hinside : i + n < g.rows
      · rw [List.getElem?_append_left (by omega), List.getElem?_append_right (by omega), habove,
          List.getElem?_drop, getElem?_withCells, if_pos (by omega)]
        simp only [hbelow, hinside, if_true]
        rw [show g.row + min n (g.rows - g.row) + (i - g.row) = i + n by omega]
      · rw [List.getElem?_append_right (by omega), List.getElem?_replicate, if_pos (by omega)]
        simp only [hbelow, hinside, if_true, if_false]
        exact congrArg some replicate_eq_lineOf
    · rw [List.getElem?_append_left (by omega), List.getElem?_append_left (by omega),
        List.getElem?_take_of_lt (by omega), getElem?_withCells, if_pos hi]
      simp only [hbelow, if_false]

end Cursor

/-- The cursor's line changed from the cursor on. -/
theorem modifyFrom_withCells {change : List Cell → List Cell} (cell' : Nat → Nat → Cell)
    (h : change (lineOf g.cols (cell g.row))
      = lineOf g.cols fun j => if g.col ≤ j then cell' g.row j else cell g.row j) :
    { g.withCells cell with lines := (g.withCells cell).lines.modify g.row change }
      = g.withCells fun i j => if i = g.row ∧ g.col ≤ j then cell' i j else cell i j := by
  refine (modify_withCells g cell (fun i j => if g.col ≤ j then cell' i j else cell i j) h).trans
    (withCells_congr fun i _ j _ => ?_)
  by_cases hi : i = g.row
  · simp only [hi, if_true, true_and]
  · rw [if_neg hi, if_neg fun h => hi h.1]

section Cursor

variable (hcol : g.col < g.cols)
include hcol

/-- A blank put in at the cursor: behind it every cell is the one to its left. -/
theorem insertChar_withCells :
    (g.withCells cell).insertChar
      = g.withCells fun i j => if i = g.row ∧ g.col ≤ j then
          if g.col + 1 ≤ j then cell i (j - 1) else .blank
        else cell i j :=
  modifyFrom_withCells g cell (fun i j => if g.col + 1 ≤ j then cell i (j - 1) else .blank)
    (insertIdx_lineOf hcol)

/-- The cell at the cursor taken out: from there on every cell is the one to its right. -/
theorem deleteChar_withCells :
    (g.withCells cell).deleteChar
      = g.withCells fun i j => if i = g.row ∧ g.col ≤ j then
          if j + 1 < g.cols then cell i (j + 1) else .blank
        else cell i j :=
  modifyFrom_withCells g cell (fun i j => if j + 1 < g.cols then cell i (j + 1) else .blank)
    (eraseIdx_lineOf hcol)

end Cursor

end Grid

end BoardConsole.Terminal
