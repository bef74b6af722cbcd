import BoardConsole.Proofs.Cells
import BoardConsole.Proofs.Operands

/-!
# What the erasing commands make blank

J erases a part of the screen and K a part of the cursor's row.  The part up to the cursor is not
one that a grid can erase: there J goes through the rows above the cursor, one after another, and
puts the cursor back.

- `erases`: the cells that a command makes blank.
- `Grid.applyAll_eraseRows`: the rows that have been gone through are blank, by induction on them.
- `Display.erase_exact`: **the erasing commands make those cells blank**, and do nothing else.
-/

namespace BoardConsole.Terminal

/-- The cell in row `i` and column `j` is one that a command makes blank, with some value and the
cursor in some row and column: J on the screen, K in the cursor's row. -/
def erases (letter : Char) (value row col i j : Nat) : Bool :=
  match letter, value with
  | 'J', 0 => row < i || (i = row && col ≤ j)
  | 'J', 1 => i < row || (i = row && j < col)
  | 'J', 2 => true
  | 'J', 3 => true
  | 'K', 0 => i = row && col ≤ j
  | 'K', 1 => i = row && j < col
  | 'K', 2 => i = row
  | _, _ => false

/-- A value from 4 on erases nothing. -/
theorem erases_beyond (letter : Char) (value row col i j : Nat) :
    erases letter (value + 4) row col i j = false := by
  unfold erases
  split
  all_goals first
    | rfl
    | omega

/-- So it makes no difference where values are cut off. -/
theorem erases_cut (letter : Char) (value row col i j : Nat) :
    erases letter (min value Params.greatest) row col i j = erases letter value row col i j := by
  by_cases hsmall : value < 4
  · have hcut : min value Params.greatest = value := Nat.min_eq_left (by
      rw [Params.greatest]
      omega)
    rw [hcut]
  · obtain ⟨n, rfl⟩ : ∃ n, value = n + 4 := ⟨value - 4, by omega⟩
    obtain ⟨m, hm⟩ : ∃ m, min (n + 4) Params.greatest = m + 4 :=
      ⟨min (n + 4) Params.greatest - 4, by rw [Params.greatest]; omega⟩
    rw [hm, erases_beyond, erases_beyond]

namespace Grid

/-- A number of rows from the top erased one by one.  The cursor is in the last of them. -/
theorem applyAll_eraseRows (g : Grid) (cell : Nat → Nat → Cell) {n : Nat} (hn : n ≤ g.rows) :
    ∃ row col, (g.withCells cell).applyAll
        ((List.range n).flatMap fun r => [.move r 0, .eraseLine .all])
      = { g with row, col }.withCells fun i j => if i < n then .blank else cell i j := by
  induction n with
  | zero => exact ⟨g.row, g.col, withCells_congr fun i _ j _ => (if_neg (Nat.not_lt_zero i)).symm⟩
  | succ n ih =>
    obtain ⟨row, col, hbefore⟩ := ih (Nat.le_of_succ_le hn)
    have hmoved : min n (g.rows - 1) = n := by omega
    refine ⟨n, 0, ?_⟩
    rw [List.range_succ, List.flatMap_append, applyAll_append, hbefore]
    show ((Grid.withCells { g with row, col } _).moveCursor n 0).eraseLine .all = _
    rw [moveCursor, rows_withCells]
    show (Grid.withCells
      { g with row := min n (g.rows - 1), col := min 0 (g.cols - 1) } _).eraseLine .all = _
    rw [hmoved, Nat.zero_min, eraseLine_withCells]
    refine withCells_congr fun i _ j _ => ?_
    -- the row that the cursor is in now, and those before it
    have hiff : i < n + 1 ↔ i = n ∨ i < n := by omega
    by_cases hi : i = n
    · rw [if_pos ⟨hi, rfl⟩, if_pos (hiff.mpr (.inl hi))]
    · rw [if_neg fun h => hi h.1]
      simp only [hiff, hi, false_or]

variable {g : Grid} (h : g.Sound)
include h

/-- What J does with value 1: the rows above the cursor, and then its own up to it. -/
theorem applyAll_eraseBefore :
    g.applyAll (Interpreter.eraseBefore g.viewport)
      = g.withCells fun i j => if erases 'J' 1 g.row g.col i j then .blank else g.look i j := by
  obtain ⟨row, col, hrows⟩ := applyAll_eraseRows g g.look (Nat.le_of_lt h.row_lt)
  rw [withCells_look h] at hrows
  have hback : (Grid.withCells { g with row, col } fun i j =>
      if i < g.row then .blank else g.look i j).moveCursor g.row g.col
      = g.withCells fun i j => if i < g.row then .blank else g.look i j :=
    moveCursor_inside (by rw [rows_withCells]; exact h.row_lt) h.col_lt
  rw [Interpreter.eraseBefore]
  show g.applyAll (((List.range g.row).flatMap fun r => [.move r 0, .eraseLine .all])
    ++ [.move g.row g.col, .eraseLine .toCursor]) = _
  rw [applyAll_append, hrows]
  show ((Grid.withCells { g with row, col } _).moveCursor g.row g.col).eraseLine .toCursor = _
  rw [hback, eraseLine_withCells]
  refine withCells_congr fun i _ j _ => ?_
  simp only [erases, LineErase.covers, Bool.or_eq_true, Bool.and_eq_true, decide_eq_true_eq]
  by_cases habove : i < g.row
  · simp only [habove, if_true, ite_self, true_or]
  · simp only [habove, if_false, false_or]

end Grid

/-- Carried out, an erasing command makes its cells blank and does nothing else. -/
theorem Interpreter.execute_erasing (it : Interpreter) {g : Grid} (h : g.Sound) {letter : Char}
    (hletter : letter ∈ ['J', 'K']) :
    ∃ actions, it.execute g.viewport letter = ⟨it, actions, []⟩ ∧
      g.applyAll actions = g.withCells fun i j =>
        if erases letter (it.params.get 0) g.row g.col i j then .blank else g.look i j := by
  have hlook := Grid.withCells_look h
  have hnothing : ∀ n, (∀ i j, erases letter n g.row g.col i j = false) →
      g.applyAll [] = g.withCells fun i j =>
        if erases letter n g.row g.col i j then .blank else g.look i j := by
    intro n hnone
    simp only [hnone, Bool.false_eq_true, if_false]
    exact hlook.symm
  have hdisplay : ∀ part, g.applyAll [.eraseDisplay part] = g.withCells fun i j =>
      if part.covers g.row g.col i j then .blank else g.look i j := by
    intro part
    rw [← Grid.eraseDisplay_withCells, hlook]
    rfl
  have hline : ∀ part, g.applyAll [.eraseLine part] = g.withCells fun i j =>
      if i = g.row && part.covers g.col j then .blank else g.look i j := by
    intro part
    simp only [Bool.and_eq_true, decide_eq_true_eq]
    rw [← Grid.eraseLine_withCells, hlook]
    rfl
  simp only [List.mem_cons, List.not_mem_nil, or_false] at hletter
  rcases hletter with rfl | rfl
  · rcases hvalue : it.params.get 0 with _ | _ | _ | _ | n
    · exact ⟨_, by unfold execute; simp only [hvalue], hdisplay .toEnd⟩
    · exact ⟨_, by unfold execute; simp only [hvalue], Grid.applyAll_eraseBefore h⟩
    · exact ⟨_, by unfold execute; simp only [hvalue], hdisplay .all⟩
    · exact ⟨_, by unfold execute; simp only [hvalue], hdisplay .all⟩
    · exact ⟨_, by unfold execute; simp only [hvalue], hnothing _ fun i j => erases_beyond 'J' n ..⟩
  · have hall : g.applyAll [.eraseLine .all] = g.withCells fun i j =>
        if erases 'K' 2 g.row g.col i j then .blank else g.look i j := by
      simpa only [erases, LineErase.covers, Bool.and_true] using hline .all
    rcases hvalue : it.params.get 0 with _ | _ | _ | n
    · exact ⟨_, by unfold execute; simp only [hvalue], hline .toEnd⟩
    · exact ⟨_, by unfold execute; simp only [hvalue], hline .toCursor⟩
    · exact ⟨_, by unfold execute; simp only [hvalue], hall⟩
    · exact ⟨_, by unfold execute; simp only [hvalue], hnothing _ fun _ _ => rfl⟩

namespace Display

/-- **The erasing commands make exactly their cells blank**, on every grid and with every text of
parameters.  The value is the first number of the text, 0 if there is none.  Every cell that the
command erases is a space drawn with the default pen afterwards, and every other one is what it was.
The size, the cursor, the pen, the colours chosen and the saved cursor stay, and there is no
answer. -/
theorem erase_exact {d : Display} (hmode : d.interpreter.mode = .ground) (hsound : d.grid.Sound)
    {text : Bytes} (htext : ∀ b ∈ text, isParameter b) {letter : Char}
    (hletter : letter ∈ ['J', 'K']) :
    let value := (Token.operand? text 0).getD 0
    let erased := erases letter value d.grid.row d.grid.col
    let cells := fun i j => if erased i j then .blank else d.grid.look i j
    let out := d.feedAll (controlSequence text letter)
    out.1.interpreter.mode = .ground ∧
    (∀ i j, out.1.grid.cell? i j
      = (d.grid.cell? i j).map fun cell =>
          if erased i j then { char := ' ', pen := {} } else cell) ∧
    out.1.grid = d.grid.withCells cells ∧ out.1.picture = { d.picture with grid := out.1.grid } ∧
    out.2 = [] := by
  intro value erased cells out
  obtain ⟨hcommand, hdefault⟩ :
      Interpreter.isCommand letter ∧ (Interpreter.defaults letter)[0]? = some 0 := by
    simp only [List.mem_cons, List.not_mem_nil, or_false] at hletter
    rcases hletter with rfl | rfl
    · exact ⟨rfl, rfl⟩
    · exact ⟨rfl, rfl⟩
  obtain ⟨actions, hexecute, herased⟩ :=
    (d.closing text letter).execute_erasing hsound hletter
  simp only [d.get_closing text hdefault, erases_cut] at herased
  obtain ⟨hground, hgrid, hpicture, hsilent⟩ :=
    feedAll_drawing hmode htext hcommand hexecute herased
  refine ⟨hground, fun i j => ?_, hgrid, hpicture, hsilent⟩
  rw [hgrid, Grid.cell?_withCells, hsound.cell?_eq]
  split
  · rfl
  · rfl

/-- The part before the cursor, on a screen of red letters: the value is 01, and there is a number
behind it that is not looked at. -/
theorem erase_exact_before :
    let drawn := [.setColors .red .standard] ++ ['a', 'b', 'c', 'd', 'e', 'f', 'g', 'h'].map .write
    let d : Display :=
      ⟨{ foreground := .red }, (Grid.blank 3 3).applyAll (drawn ++ [.move 1 1, .bell])⟩
    let text : Bytes := [0x30, 0x31, 0x3B, 0x37]
    let out := d.feedAll (controlSequence text 'J')
    out.1.grid.cell? 1 0 = some { char := ' ', pen := {} } ∧
      out.1.grid.cell? 1 1 = some { char := 'e', pen := { foreground := .red } } ∧
      (List.range 3).map out.1.grid.rowText = [[' ', ' ', ' '], [' ', 'e', 'f'], ['g', 'h', ' ']] ∧
      (out.1.grid.row, out.1.grid.col, out.1.grid.bells) = (1, 1, 1) ∧ out.2 = [] := by
  intro drawn d text out
  have hsound : d.grid.Sound := ((Grid.sound_blank 3 3).applyAll _).sound
  have htext : ∀ b ∈ text, isParameter b := by decide +kernel
  have hletter : 'J' ∈ ['J', 'K'] := by decide
  have hmode : d.interpreter.mode = .ground := rfl
  obtain ⟨-, hcells, hgrid, -, hsilent⟩ := erase_exact hmode hsound htext hletter
  refine ⟨(hcells 1 0).trans (by decide +kernel), (hcells 1 1).trans (by decide +kernel), ?_, ?_,
    hsilent⟩
  · rw [hgrid]
    decide +kernel
  · rw [hgrid]
    decide +kernel

end Display

end BoardConsole.Terminal
