import Mathlib.Algebra.Group.Nat.Defs
import BoardConsole.Proofs.Cells
import BoardConsole.Proofs.Operands

/-!
# Commands that move cells

S and T move the whole screen up and down, L and M the lines from the cursor's on, `@` and P the
cells of the cursor's row from the cursor on.  Each is a shift by its count: what comes in from
outside is blank.  For characters the grid knows a shift by one only, and the command repeats it.

- `Grid.shifted`: the cells after a command, as the cells before it from where they come.
- `Grid.applyAll_insertChars`, `Grid.applyAll_deleteChars`: repeated shifts by one are a shift, by
  induction on their number.
- `Grid.shifted_beyond`: a count beyond the grid shifts like any other such count.
- `Display.shift_exact`: **the commands are exact shifts**, however long their counts are.
-/

namespace BoardConsole.Terminal

namespace Grid

/-- The cell in row `i` and column `j` after a command with some count has moved cells. -/
def shifted (g : Grid) (letter : Char) (count i j : Nat) : Cell :=
  match letter with
  | 'S' => g.look (i + count) j
  | 'T' => if count ≤ i then g.look (i - count) j else .blank
  | 'L' =>
    if g.row ≤ i then if g.row + count ≤ i then g.look (i - count) j else .blank else g.look i j
  | 'M' => if g.row ≤ i then g.look (i + count) j else g.look i j
  | '@' =>
    if i = g.row ∧ g.col ≤ j then if g.col + count ≤ j then g.look i (j - count) else .blank
    else g.look i j
  | 'P' => if i = g.row ∧ g.col ≤ j then g.look i (j + count) else g.look i j
  | _ => g.look i j

/-- The commands that move cells. -/
def shifts : List Char := ['S', 'T', 'L', 'M', '@', 'P']

/-- How far a command can move cells before none of them is left. -/
def extent (g : Grid) (letter : Char) : Nat := if letter ∈ ['@', 'P'] then g.cols else g.rows

/-! ## Repeated shifts by one -/

section Repeated

variable (g : Grid) (cell : Nat → Nat → Cell) (hcol : g.col < g.cols)
include hcol

theorem applyAll_insertChars (n : Nat) :
    (g.withCells cell).applyAll (List.replicate n .insertChar)
      = g.withCells fun i j => if i = g.row ∧ g.col ≤ j then
          if g.col + n ≤ j then cell i (j - n) else .blank
        else cell i j := by
  induction n with
  | zero =>
    refine withCells_congr fun i _ j _ => ?_
    by_cases hmoved : i = g.row ∧ g.col ≤ j
    · rw [if_pos hmoved, Nat.add_zero, if_pos hmoved.2, Nat.sub_zero]
    · rw [if_neg hmoved]
  | succ n ih =>
    rw [List.replicate_succ', applyAll_append, ih]
    refine (insertChar_withCells g _ hcol).trans (withCells_congr fun i _ j _ => ?_)
    by_cases hmoved : i = g.row ∧ g.col ≤ j
    · rw [if_pos hmoved, if_pos hmoved]
      by_cases hbehind : g.col + 1 ≤ j
      · rw [if_pos hbehind, if_pos ⟨hmoved.1, Nat.le_sub_of_add_le hbehind⟩]
        by_cases hfar : g.col + (n + 1) ≤ j
        · rw [if_pos hfar, if_pos (by omega), Nat.sub_sub, Nat.add_comm 1 n]
        · rw [if_neg hfar, if_neg (by omega)]
      · rw [if_neg hbehind, if_neg (by omega)]
    · rw [if_neg hmoved, if_neg hmoved, if_neg hmoved]

theorem applyAll_deleteChars (n : Nat) :
    (g.withCells cell).applyAll (List.replicate n .deleteChar)
      = g.withCells fun i j => if i = g.row ∧ g.col ≤ j then
          if j + n < g.cols then cell i (j + n) else .blank
        else cell i j := by
  induction n with
  | zero =>
    refine withCells_congr fun i _ j hj => ?_
    by_cases hmoved : i = g.row ∧ g.col ≤ j
    · rw [if_pos hmoved, Nat.add_zero, if_pos hj]
    · rw [if_neg hmoved]
  | succ n ih =>
    rw [List.replicate_succ', applyAll_append, ih]
    refine (deleteChar_withCells g _ hcol).trans (withCells_congr fun i _ j _ => ?_)
    by_cases hmoved : i = g.row ∧ g.col ≤ j
    · rw [if_pos hmoved, if_pos hmoved]
      by_cases hnext : j + 1 < g.cols
      · rw [if_pos hnext, if_pos ⟨hmoved.1, Nat.le_succ_of_le hmoved.2⟩,
          show j + 1 + n = j + (n + 1) by omega]
      · rw [if_neg hnext, if_neg (by omega)]
    · rw [if_neg hmoved, if_neg hmoved, if_neg hmoved]

end Repeated

/-! ## Counts beyond the grid -/

variable {g : Grid} (h : g.Sound)
include h

/-- **A count beyond the grid moves everything out of it**, whatever the count. -/
theorem shifted_beyond {letter : Char} (hletter : letter ∈ shifts) {m n : Nat}
    (hm : g.extent letter ≤ m) (hn : g.extent letter ≤ n) {i j : Nat} (hi : i < g.rows)
    (hj : j < g.cols) : g.shifted letter m i j = g.shifted letter n i j := by
  have hbelow : ∀ k, g.rows ≤ k → g.look (i + k) j = .blank := fun k hk =>
    h.look_outside (.inl (by omega))
  have hright : ∀ k, g.cols ≤ k → g.look i (j + k) = .blank := fun k hk =>
    h.look_outside (.inr (by omega))
  simp only [shifts, List.mem_cons, List.not_mem_nil, or_false] at hletter
  rcases hletter with rfl | rfl | rfl | rfl | rfl | rfl
  · exact (hbelow m hm).trans (hbelow n hn).symm
  · have htop : ∀ k, g.rows ≤ k → (if k ≤ i then g.look (i - k) j else .blank) = .blank :=
      fun k hk => if_neg (by omega)
    exact (htop m hm).trans (htop n hn).symm
  · have htop : ∀ k, g.rows ≤ k →
        (if g.row + k ≤ i then g.look (i - k) j else .blank) = .blank := fun k hk =>
      if_neg (by omega)
    exact congrArg (fun x => if g.row ≤ i then x else g.look i j)
      ((htop m hm).trans (htop n hn).symm)
  · exact congrArg (fun x => if g.row ≤ i then x else g.look i j)
      ((hbelow m hm).trans (hbelow n hn).symm)
  · have hleft : ∀ k, g.cols ≤ k →
        (if g.col + k ≤ j then g.look i (j - k) else .blank) = .blank := fun k hk =>
      if_neg (by omega)
    exact congrArg (fun x => if i = g.row ∧ g.col ≤ j then x else g.look i j)
      ((hleft m hm).trans (hleft n hn).symm)
  · exact congrArg (fun x => if i = g.row ∧ g.col ≤ j then x else g.look i j)
      ((hright m hm).trans (hright n hn).symm)

/-- So it makes no difference where counts are cut off, unless it is within the grid. -/
theorem shifted_cut {letter : Char} (hletter : letter ∈ shifts) {limit : Nat}
    (hlimit : g.extent letter ≤ limit) (count : Nat) :
    g.withCells (g.shifted letter (min count limit)) = g.withCells (g.shifted letter count) := by
  by_cases hcount : count ≤ limit
  · rw [Nat.min_eq_left hcount]
  · refine withCells_congr fun i hi j hj => ?_
    exact shifted_beyond h hletter (by omega) (by omega) hi hj

/-! ## Each command -/

/-- Scrolled up, a screen shows in each row the one that many rows below. -/
theorem scroll_up (n : Nat) : g.scroll n = g.withCells (g.shifted 'S' n) := by
  have hup : g.scroll n = g.scrollUp n := if_pos (Int.natCast_nonneg n)
  have hcells := scrollUp_withCells g g.look n
  rw [withCells_look h] at hcells
  rw [hup, hcells]
  refine withCells_congr fun i _ j _ => ?_
  exact h.ite_look fun hbelow => .inl (Nat.le_of_not_lt hbelow)

/-- Scrolled down, a screen shows in each row the one that many rows above. -/
theorem scroll_down (n : Nat) : g.scroll (-(n : Int)) = g.withCells (g.shifted 'T' n) := by
  by_cases hn : n = 0
  · subst hn
    exact scroll_up h 0
  · have hdown : g.scroll (-(n : Int)) = g.scrollDown n := by
      rw [scroll, if_neg (by omega), Int.neg_neg, Int.toNat_natCast]
    have hcells := scrollDown_withCells g g.look n
    rw [withCells_look h] at hcells
    rw [hdown, hcells]
    rfl

theorem insertLines_shifted (n : Nat) : g.insertLines n = g.withCells (g.shifted 'L' n) := by
  have hcells := insertLines_withCells g g.look h.row_lt n
  rw [withCells_look h] at hcells
  exact hcells

theorem deleteLines_shifted (n : Nat) : g.deleteLines n = g.withCells (g.shifted 'M' n) := by
  have hcells := deleteLines_withCells g g.look h.row_lt n
  rw [withCells_look h] at hcells
  rw [hcells]
  refine withCells_congr fun i _ j _ => congrArg (fun x => if g.row ≤ i then x else g.look i j) ?_
  exact h.ite_look fun hbelow => .inl (Nat.le_of_not_lt hbelow)

theorem insertChars_shifted (n : Nat) :
    g.applyAll (List.replicate n .insertChar) = g.withCells (g.shifted '@' n) := by
  have hcells := applyAll_insertChars g g.look h.col_lt n
  rw [withCells_look h] at hcells
  exact hcells

theorem deleteChars_shifted (n : Nat) :
    g.applyAll (List.replicate n .deleteChar) = g.withCells (g.shifted 'P' n) := by
  have hcells := applyAll_deleteChars g g.look h.col_lt n
  rw [withCells_look h] at hcells
  rw [hcells]
  refine withCells_congr fun i _ j _ =>
    congrArg (fun x => if i = g.row ∧ g.col ≤ j then x else g.look i j) ?_
  exact h.ite_look fun hright => .inr (Nat.le_of_not_lt hright)

end Grid

/-- Carried out, a command shifts by its count and does nothing else. -/
theorem Interpreter.execute_shifting (it : Interpreter) {g : Grid} (h : g.Sound) {letter : Char}
    (hletter : letter ∈ Grid.shifts) :
    ∃ actions, it.execute g.viewport letter = ⟨it, actions, []⟩ ∧
      g.applyAll actions = g.withCells (g.shifted letter (it.params.get 0)) := by
  -- the command cuts its count off at the size of the grid
  rw [← Grid.shifted_cut h hletter (Nat.le_refl _)]
  simp only [Grid.shifts, List.mem_cons, List.not_mem_nil, or_false] at hletter
  rcases hletter with rfl | rfl | rfl | rfl | rfl | rfl
  · exact ⟨_, rfl, Grid.scroll_up h _⟩
  · exact ⟨_, rfl, Grid.scroll_down h _⟩
  · exact ⟨_, rfl, Grid.insertLines_shifted h _⟩
  · exact ⟨_, rfl, Grid.deleteLines_shifted h _⟩
  · exact ⟨_, rfl, Grid.insertChars_shifted h _⟩
  · exact ⟨_, rfl, Grid.deleteChars_shifted h _⟩

namespace Display

/-- **The commands that move cells are exact shifts**, on every grid of fewer than 2³² rows and
columns and with every text of parameters.  The count is the first number of the text, however many
digits it has, and 1 if there is none.  Every cell afterwards is the one from where `Grid.shifted`
says that it comes, blank if that is outside the grid.  The size, the cursor, the pen, the colours
chosen and the saved cursor stay, and there is no answer. -/
theorem shift_exact {d : Display} (hmode : d.interpreter.mode = .ground) (hsound : d.grid.Sound)
    (hrows : d.grid.rows < 2 ^ 32) (hcols : d.grid.cols < 2 ^ 32) {text : Bytes}
    (htext : ∀ b ∈ text, isParameter b) {letter : Char} (hletter : letter ∈ Grid.shifts) :
    let count := (Token.operand? text 0).getD 1
    let out := d.feedAll (controlSequence text letter)
    out.1.interpreter.mode = .ground ∧
    (∀ i j, out.1.grid.cell? i j
      = (d.grid.cell? i j).map fun _ => d.grid.shifted letter count i j) ∧
    out.1.grid = d.grid.withCells (d.grid.shifted letter count) ∧
    out.1.picture = { d.picture with grid := out.1.grid } ∧ out.2 = [] := by
  intro count out
  obtain ⟨hcommand, hdefault⟩ :
      Interpreter.isCommand letter ∧ (Interpreter.defaults letter)[0]? = some 1 := by
    have hall : Grid.shifts.all fun c =>
        Interpreter.isCommand c && (Interpreter.defaults c)[0]? = some 1 := by
      decide
    have hknown := List.all_eq_true.mp hall letter hletter
    rw [Bool.and_eq_true, decide_eq_true_eq] at hknown
    exact hknown
  have hextent : d.grid.extent letter ≤ Params.greatest := by
    rw [Grid.extent, Params.greatest]
    split <;> omega
  obtain ⟨actions, hexecute, hshifted⟩ :=
    (d.closing text letter).execute_shifting hsound hletter
  rw [d.get_closing text hdefault, Grid.shifted_cut hsound hletter hextent] at hshifted
  obtain ⟨hground, hgrid, hpicture, hsilent⟩ :=
    feedAll_drawing hmode htext hcommand hexecute hshifted
  refine ⟨hground, fun i j => ?_, hgrid, hpicture, hsilent⟩
  rw [hgrid, Grid.cell?_withCells, hsound.cell?_eq]
  split
  · rfl
  · rfl

/-- On four rows of three letters: lines taken out with the count 02, and the cells from the cursor
on with the count 2³² + 1. -/
theorem shift_exact_deletions :
    let letters := ['a', 'b', 'c', 'd', 'e', 'f', 'g', 'h', 'i', 'j', 'k'].map .write
    let d : Display := ⟨{}, (Grid.blank 4 3).applyAll (letters ++ [.move 1 1])⟩
    let two : Bytes := [0x30, 0x32]
    let beyond : Bytes := [0x34, 0x32, 0x39, 0x34, 0x39, 0x36, 0x37, 0x32, 0x39, 0x37]
    let lines := (d.feedAll (controlSequence two 'M')).1.grid
    let cells := (d.feedAll (controlSequence beyond 'P')).1.grid
    (List.range 4).map lines.rowText
        = [['a', 'b', 'c'], ['j', 'k', ' '], [' ', ' ', ' '], [' ', ' ', ' ']] ∧
      (List.range 4).map cells.rowText
        = [['a', 'b', 'c'], ['d', ' ', ' '], ['g', 'h', 'i'], ['j', 'k', ' ']] ∧
      (lines.row, lines.col) = (1, 1) ∧ (cells.row, cells.col) = (1, 1) := by
  intro letters d two beyond lines cells
  have hmode : d.interpreter.mode = .ground := rfl
  have hsound : d.grid.Sound := ((Grid.sound_blank 4 3).applyAll _).sound
  have hrows : d.grid.rows < 2 ^ 32 := by decide +kernel
  have hcols : d.grid.cols < 2 ^ 32 := by decide +kernel
  have htwo : ∀ b ∈ two, isParameter b := by decide +kernel
  have hbeyond : ∀ b ∈ beyond, isParameter b := by decide +kernel
  have hM : 'M' ∈ Grid.shifts := by decide
  have hP : 'P' ∈ Grid.shifts := by decide
  obtain ⟨-, -, hlines, -⟩ := shift_exact hmode hsound hrows hcols htwo hM
  obtain ⟨-, -, hcells, -⟩ := shift_exact hmode hsound hrows hcols hbeyond hP
  refine ⟨?_, ?_, ?_, ?_⟩
  · rw [show lines = _ from hlines]
    decide +kernel
  · rw [show cells = _ from hcells]
    decide +kernel
  · rw [show lines = _ from hlines]
    decide +kernel
  · rw [show cells = _ from hcells]
    decide +kernel

end Display

end BoardConsole.Terminal
