import Mathlib.Algebra.Group.Int.Defs
import Mathlib.Algebra.Group.Nat.Defs
import BoardConsole.Proofs.Bounds
import BoardConsole.Proofs.Operands

/-!
# Where the cursor is sent

A to D move the cursor by a distance, E and F by a number of lines and to their start, G and H to a
place that is counted from one; f is H by another name.  Numbers are cut off at 32 bits, and places
at the edges of the screen.

- `target`: where a command sends the cursor, on a screen without edges.
- `clamp`: the nearest place on the screen.
- `placeBy`: where a command sends the cursor, however a position is moved by a distance.
- `Viewport.Sound.placeBy_offsetInWords`: signed words of 64 bits are wide enough for every sum.
- `Viewport.Sound.nearest_cut`: **no cut shows but the last one**, at the edges.
- `Display.motion_clamped`: the commands send the cursor to the nearest place to their target, and
  in words to the same.
-/

namespace BoardConsole.Terminal

/-! ## Targets -/

/-- The commands that send the cursor somewhere. -/
def motions : List Char := ['A', 'B', 'C', 'D', 'E', 'F', 'G', 'H', 'f']

/-- The row and the column that a command means, with its two numbers and the cursor in some row and
column. -/
def target (letter : Char) (n m row col : Int) : Int × Int :=
  match letter with
  | 'A' => (row - n, col)
  | 'B' => (row + n, col)
  | 'C' => (row, col + n)
  | 'D' => (row, col - n)
  | 'E' => (row + n, 0)
  | 'F' => (row - n, 0)
  | 'G' => (row, n - 1)
  | 'H' => (n - 1, m - 1)
  | 'f' => (n - 1, m - 1)
  | _ => (row, col)

/-- The nearest of the first `len` places. -/
def clamp (place : Int) (len : Nat) : Nat := (max 0 (min place (len - 1))).toNat

theorem clamp_of_lt {place len : Nat} (h : place < len) : clamp place len = place := by
  rw [clamp]
  omega

theorem clamp_lt {len : Nat} (h : 0 < len) (place : Int) : clamp place len < len := by
  rw [clamp]
  omega

theorem clamp_zero (len : Nat) : clamp 0 len = 0 := by
  rw [clamp]
  omega

theorem offset_eq_clamp (pos : Nat) (delta : Int) (len : Nat) :
    offset pos delta len = clamp (pos + delta) len := by
  rw [offset, clamp]
  omega

/-- The nearest place on a screen. -/
def Viewport.nearest (v : Viewport) (place : Int × Int) : Nat × Nat :=
  (clamp place.1 v.rows, clamp place.2 v.cols)

/-- Where a command sends the cursor, with its two numbers and a way to move a position by some
distance on so many places. -/
def placeBy (moved : Nat → Int → Nat → Nat) (letter : Char) (n m : Nat) (v : Viewport) :
    Nat × Nat :=
  match letter with
  | 'A' => (moved v.row (-n) v.rows, v.col)
  | 'B' => (moved v.row n v.rows, v.col)
  | 'C' => (v.row, moved v.col n v.cols)
  | 'D' => (v.row, moved v.col (-n) v.cols)
  | 'E' => (moved v.row n v.rows, 0)
  | 'F' => (moved v.row (-n) v.rows, 0)
  | 'G' => (v.row, moved 0 (n - 1) v.cols)
  | 'H' => (moved 0 (n - 1) v.rows, moved 0 (m - 1) v.cols)
  | 'f' => (moved 0 (n - 1) v.rows, moved 0 (m - 1) v.cols)
  | _ => (v.row, v.col)

/-- **The place is the nearest one to the target**, if every position comes to the nearest place to
where its distance leads. -/
theorem Viewport.Sound.placeBy_eq {v : Viewport} (hv : v.Sound) {moved : Nat → Int → Nat → Nat}
    {n m : Nat} (letter : Char)
    (hmoved : ∀ {pos len : Nat} {delta : Int}, pos < len → len ≤ max v.rows v.cols →
      delta.natAbs ≤ max 1 (max n m) → moved pos delta len = clamp (pos + delta) len) :
    placeBy moved letter n m v = v.nearest (target letter n m v.row v.col) := by
  have hrow : v.row = clamp v.row v.rows := (clamp_of_lt hv.row_lt).symm
  have hcol : v.col = clamp v.col v.cols := (clamp_of_lt hv.col_lt).symm
  have hstart : 0 = clamp 0 v.cols := (clamp_zero v.cols).symm
  have hrows : ∀ {pos : Nat} {delta place : Int}, pos < v.rows →
      delta.natAbs ≤ max 1 (max n m) → pos + delta = place →
      moved pos delta v.rows = clamp place v.rows := by
    rintro pos delta _ hpos hdelta rfl
    exact hmoved hpos (Nat.le_max_left ..) hdelta
  have hcols : ∀ {pos : Nat} {delta place : Int}, pos < v.cols →
      delta.natAbs ≤ max 1 (max n m) → pos + delta = place →
      moved pos delta v.cols = clamp place v.cols := by
    rintro pos delta _ hpos hdelta rfl
    exact hmoved hpos (Nat.le_max_right ..) hdelta
  have hfirst : ∀ {d : Nat}, d ≤ max n m → ((d : Int) - 1).natAbs ≤ max 1 (max n m) := by
    intro d hd
    omega
  have htop : 0 < v.rows := Nat.zero_lt_of_lt hv.row_lt
  have hleft : 0 < v.cols := Nat.zero_lt_of_lt hv.col_lt
  unfold placeBy target
  split
  · exact Prod.ext (hrows hv.row_lt (by omega) rfl) hcol
  · exact Prod.ext (hrows hv.row_lt (by omega) rfl) hcol
  · exact Prod.ext hrow (hcols hv.col_lt (by omega) rfl)
  · exact Prod.ext hrow (hcols hv.col_lt (by omega) rfl)
  · exact Prod.ext (hrows hv.row_lt (by omega) rfl) hstart
  · exact Prod.ext (hrows hv.row_lt (by omega) rfl) hstart
  · exact Prod.ext hrow (hcols hleft (hfirst (Nat.le_max_left ..)) (Int.zero_add _))
  · exact Prod.ext (hrows htop (hfirst (Nat.le_max_left ..)) (Int.zero_add _))
      (hcols hleft (hfirst (Nat.le_max_right ..)) (Int.zero_add _))
  · exact Prod.ext (hrows htop (hfirst (Nat.le_max_left ..)) (Int.zero_add _))
      (hcols hleft (hfirst (Nat.le_max_right ..)) (Int.zero_add _))
  · exact Prod.ext hrow hcol

/-! ## Numbers that are cut off -/

/-- A number in a signed word of 64 bits. -/
def wrapped (n : Int) : Int := n.bmod (2 ^ 64)

/-- A sum that stops at the ends of a signed word of 64 bits. -/
def saturated (a b : Int) : Int := max (-2 ^ 63) (min (a + b) (2 ^ 63 - 1))

/-- A position moved by some distance, with everything in signed words of 64 bits. -/
def offsetInWords (pos : Nat) (delta : Int) (len : Nat) : Nat :=
  (max 0 (min (saturated (wrapped pos) (wrapped delta)) (wrapped (len - 1 : Nat)))).toNat

/-- In words a position comes to the same place, on a screen of fewer than 2³² rows and columns and
at any distance that a parameter can say. -/
theorem offsetInWords_eq {pos len : Nat} {delta : Int} (hpos : pos < len) (hlen : len < 2 ^ 32)
    (hdelta : delta.natAbs ≤ Params.greatest) :
    offsetInWords pos delta len = clamp (pos + delta) len := by
  have hword : ∀ n : Int, -2 ^ 32 ≤ n → n < 2 ^ 32 → wrapped n = n := by
    intro n hfrom hto
    exact Int.bmod_eq_of_le (by omega) (by omega)
  rw [Params.greatest] at hdelta
  have hsum : saturated pos delta = pos + delta := by
    rw [saturated]
    omega
  rw [offsetInWords, hword pos (by omega) (by omega), hword delta (by omega) (by omega),
    hword (len - 1 : Nat) (by omega) (by omega), hsum, clamp]
  omega

/-- **In words a command sends the cursor to the same place.** -/
theorem Viewport.Sound.placeBy_offsetInWords {v : Viewport} (hv : v.Sound) (hrows : v.rows < 2 ^ 32)
    (hcols : v.cols < 2 ^ 32) {n m : Nat} (hn : n ≤ Params.greatest) (hm : m ≤ Params.greatest)
    (letter : Char) :
    placeBy offsetInWords letter n m v = v.nearest (target letter n m v.row v.col) := by
  refine hv.placeBy_eq letter fun hpos hlen hdelta => ?_
  have hone : 1 ≤ Params.greatest := by decide
  exact offsetInWords_eq hpos (by omega) (by omega)

section Cut

variable {len : Nat} (hlen : len < 2 ^ 32) (n : Nat)
include hlen

/-- Forward from any place the greatest parameter leads beyond the screen. -/
theorem clamp_add_cut (pos : Nat) :
    clamp (pos + (min n Params.greatest : Nat)) len = clamp (pos + n) len := by
  rw [clamp, clamp, Params.greatest]
  omega

/-- So it does backward from any place on the screen. -/
theorem clamp_sub_cut {pos : Nat} (hpos : pos < len) :
    clamp (pos - (min n Params.greatest : Nat)) len = clamp (pos - n) len := by
  rw [clamp, clamp, Params.greatest]
  omega

/-- And counted from one there is no such place on the screen. -/
theorem clamp_pred_cut : clamp ((min n Params.greatest : Nat) - 1) len = clamp (n - 1) len := by
  rw [clamp, clamp, Params.greatest]
  omega

end Cut

/-- **Numbers that are cut off lead to the same place**, because the screen ends before. -/
theorem Viewport.Sound.nearest_cut {v : Viewport} (hv : v.Sound) (hrows : v.rows < 2 ^ 32)
    (hcols : v.cols < 2 ^ 32) (letter : Char) (n m : Nat) :
    v.nearest
        (target letter (min n Params.greatest : Nat) (min m Params.greatest : Nat) v.row v.col)
      = v.nearest (target letter n m v.row v.col) := by
  unfold target
  split
  · exact Prod.ext (clamp_sub_cut hrows n hv.row_lt) rfl
  · exact Prod.ext (clamp_add_cut hrows n v.row) rfl
  · exact Prod.ext rfl (clamp_add_cut hcols n v.col)
  · exact Prod.ext rfl (clamp_sub_cut hcols n hv.col_lt)
  · exact Prod.ext (clamp_add_cut hrows n v.row) rfl
  · exact Prod.ext (clamp_sub_cut hrows n hv.row_lt) rfl
  · exact Prod.ext rfl (clamp_pred_cut hcols n)
  · exact Prod.ext (clamp_pred_cut hrows n) (clamp_pred_cut hcols m)
  · exact Prod.ext (clamp_pred_cut hrows n) (clamp_pred_cut hcols m)
  · rfl

/-! ## The commands -/

/-- Carried out, a command sends the cursor to the nearest place to its target and does nothing
else. -/
theorem Interpreter.execute_motion (it : Interpreter) {v : Viewport} (hv : v.Sound) {letter : Char}
    (hletter : letter ∈ motions) :
    let place := v.nearest (target letter (it.params.get 0) (it.params.get 1) v.row v.col)
    it.execute v letter = ⟨it, [.move place.1 place.2], []⟩ := by
  intro place
  have hplace : placeBy offset letter (it.params.get 0) (it.params.get 1) v = place :=
    hv.placeBy_eq letter fun _ _ _ => offset_eq_clamp ..
  rw [← hplace]
  simp only [motions, List.mem_cons, List.not_mem_nil, or_false] at hletter
  rcases hletter with rfl | rfl | rfl | rfl | rfl | rfl | rfl | rfl | rfl
  all_goals rfl

/-- Only a command that is given a row and a column looks at a second number, and there 1 is the
default of both. -/
theorem Interpreter.defaults_motion {letter : Char} (hletter : letter ∈ motions) :
    (defaults letter)[0]? = some 1 ∧
      ((defaults letter)[1]? = some 1 ∨
        ∀ n m m' row col, target letter n m row col = target letter n m' row col) := by
  simp only [motions, List.mem_cons, List.not_mem_nil, or_false] at hletter
  rcases hletter with rfl | rfl | rfl | rfl | rfl | rfl | rfl | rfl | rfl
  case inr.inr.inr.inr.inr.inr.inr.inl => exact ⟨rfl, .inl rfl⟩
  case inr.inr.inr.inr.inr.inr.inr.inr => exact ⟨rfl, .inl rfl⟩
  all_goals exact ⟨rfl, .inr fun _ _ _ _ _ => rfl⟩

namespace Display

/-- The parameters of a command mean the same target as the numbers of its text. -/
theorem target_closing (d : Display) (text : Bytes) {letter : Char} (hletter : letter ∈ motions)
    (row col : Nat) :
    let it := d.closing text letter
    let n := (Token.operand? text 0).getD 1
    let m := (Token.operand? text 1).getD 1
    target letter (it.params.get 0) (it.params.get 1) row col
      = target letter (min n Params.greatest : Nat) (min m Params.greatest : Nat) row col := by
  intro it n m
  obtain ⟨hfirst, hsecond⟩ := Interpreter.defaults_motion hletter
  rw [show it.params.get 0 = min n Params.greatest from d.get_closing text hfirst]
  rcases hsecond with hsecond | hunused
  · rw [show it.params.get 1 = min m Params.greatest from d.get_closing text hsecond]
  · exact hunused ..

/-- **The commands that send the cursor somewhere do exact arithmetic**, on every grid of fewer than
2³² rows and columns and with every text of parameters.  Their numbers are the first two of the
text, however many digits they have, and 1 where there is none; the cursor comes to the place on the
screen that is nearest to the target.  Nothing else changes, and there is no answer.

A machine that keeps its numbers in words of 32 bits, as far as they go, and moves positions in
signed words of 64 bits sends the cursor to that place too. -/
theorem motion_clamped {d : Display} (hmode : d.interpreter.mode = .ground)
    (hsound : d.grid.Sound) (hrows : d.grid.rows < 2 ^ 32) (hcols : d.grid.cols < 2 ^ 32)
    {text : Bytes} (htext : ∀ b ∈ text, isParameter b) {letter : Char}
    (hletter : letter ∈ motions) :
    let n := (Token.operand? text 0).getD 1
    let m := (Token.operand? text 1).getD 1
    let place := target letter n m d.grid.row d.grid.col
    let out := d.feedAll (controlSequence text letter)
    out.1.interpreter.mode = .ground ∧
    out.1.grid = { d.grid with
      row := clamp place.1 d.grid.rows
      col := clamp place.2 d.grid.cols } ∧
    out.1.picture = { d.picture with grid := out.1.grid } ∧ out.2 = [] ∧
    (out.1.grid.row, out.1.grid.col)
      = placeBy offsetInWords letter (min n Params.greatest) (min m Params.greatest)
          d.grid.viewport := by
  intro n m place out
  have hall : motions.all Interpreter.isCommand := by decide
  have hcommand : Interpreter.isCommand letter := List.all_eq_true.mp hall letter hletter
  have hcut := hsound.viewport.nearest_cut hrows hcols letter n m
  have hnearest : d.grid.viewport.nearest (target letter
      ((d.closing text letter).params.get 0) ((d.closing text letter).params.get 1)
      d.grid.viewport.row d.grid.viewport.col) = d.grid.viewport.nearest place := by
    rw [d.target_closing text hletter]
    exact hcut
  have hwords := hsound.viewport.placeBy_offsetInWords hrows hcols
    (Nat.min_le_right n Params.greatest) (Nat.min_le_right m Params.greatest) letter
  have hexecute := (d.closing text letter).execute_motion hsound.viewport hletter
  rw [hnearest] at hexecute
  have hmoved : d.grid.moveCursor (clamp place.1 d.grid.rows) (clamp place.2 d.grid.cols)
      = { d.grid with row := clamp place.1 d.grid.rows, col := clamp place.2 d.grid.cols } :=
    Grid.moveCursor_inside (clamp_lt hsound.rows_pos _) (clamp_lt hsound.cols_pos _)
  obtain ⟨hground, hgrid, hpicture, hreply⟩ := feedAll_drawing hmode htext hcommand hexecute hmoved
  refine ⟨hground, hgrid, hpicture, hreply, ?_⟩
  show (out.1.grid.row, out.1.grid.col) = _
  rw [hwords, hcut, show out.1.grid = _ from hgrid]
  rfl

/-- Its first number missing and the second beyond 32 bits, H sends the cursor to the end of the
first row; and D does not wrap round with 2³² + 1, but reaches the first column. -/
theorem motion_clamped_beyond :
    let d : Display := ⟨{}, (Grid.blank 3 5).applyAll [.write 'x', .move 1 3]⟩
    let missing : Bytes := [0x3B, 0x39, 0x39, 0x39, 0x39, 0x39, 0x39, 0x39, 0x39, 0x39, 0x39, 0x39]
    let beyond : Bytes := [0x34, 0x32, 0x39, 0x34, 0x39, 0x36, 0x37, 0x32, 0x39, 0x37]
    (d.feedAll (controlSequence missing 'H')).1.grid = { d.grid with row := 0, col := 4 } ∧
      (d.feedAll (controlSequence beyond 'D')).1.grid = { d.grid with row := 1, col := 0 } := by
  intro d missing beyond
  have hmode : d.interpreter.mode = .ground := rfl
  have hsound : d.grid.Sound := ((Grid.sound_blank 3 5).applyAll _).sound
  have hrows : d.grid.rows < 2 ^ 32 := by decide +kernel
  have hcols : d.grid.cols < 2 ^ 32 := by decide +kernel
  have hmissing : ∀ b ∈ missing, isParameter b := by decide +kernel
  have hbeyond : ∀ b ∈ beyond, isParameter b := by decide +kernel
  have hH : 'H' ∈ motions := by decide
  have hD : 'D' ∈ motions := by decide
  obtain ⟨-, hto, -⟩ := motion_clamped hmode hsound hrows hcols hmissing hH
  obtain ⟨-, hback, -⟩ := motion_clamped hmode hsound hrows hcols hbeyond hD
  constructor
  · rw [hto]
    decide +kernel
  · rw [hback]
    decide +kernel

end Display

end BoardConsole.Terminal
