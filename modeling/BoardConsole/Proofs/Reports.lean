import Mathlib.Algebra.Group.Nat.Defs
import BoardConsole.Proofs.Checked
import BoardConsole.Proofs.Numerals
import BoardConsole.Proofs.Renditions

/-!
# Reports of the cursor

Asked for its cursor, a terminal answers with a control sequence of its own, which spells the row
and the column in decimal and counted from one.  With another letter at its end, that sequence sends
a cursor to the place.

- `placeText`: a place on the screen as the parameters of a sequence.
- `Token.operand?_pair`: two numerals are read as two operands.
- `Display.feedAll_asking`: the report is the sequence of the cursor's place.
- `Display.feedAll_placing`: **the sequence of a place sends the cursor to that place.**
- `Display.report_restores`: what one terminal reports, another one restores.
-/

namespace BoardConsole.Terminal

/-- A place on the screen, as the parameters of a sequence. -/
def placeText (row col : Nat) : Bytes :=
  Bytes.numeral (row + 1) ++ 0x3B :: Bytes.numeral (col + 1)

/-! ## Two numerals -/

namespace Token

/-- The digits in a field are its operand. -/
theorem operand?_of_field {text field : Bytes} {index : Nat}
    (hfield : (text.splitOn 0x3B)[index]? = some field) (hnonempty : field ≠ []) :
    operand? text index = some (decimal field) := by
  rw [operand?, hfield]
  cases field with
  | nil => exact absurd rfl hnonempty
  | cons b field => rfl

variable {first second : Bytes} {n m : Nat} (hfirst : Bytes.IsNumeral first n)
  (hsecond : Bytes.IsNumeral second m)
include hfirst hsecond

theorem isParameter_pair : ∀ b ∈ first ++ 0x3B :: second, isParameter b := by
  refine List.forall_mem_append.mpr ⟨?_, List.forall_mem_cons.mpr ⟨rfl, ?_⟩⟩
  · exact IsDigits.isParameter hfirst.digits
  · exact IsDigits.isParameter hsecond.digits

/-- **Two numerals with a semicolon between them are read as their numbers.** -/
theorem operand?_pair : operand? (first ++ 0x3B :: second) 0 = some n ∧
    operand? (first ++ 0x3B :: second) 1 = some m := by
  have hdigits : ∀ field ∈ [first, second], 0x3B ∉ field :=
    List.forall_mem_cons.mpr ⟨IsDigits.semicolon_notMem hfirst.digits,
      List.forall_mem_singleton.mpr (IsDigits.semicolon_notMem hsecond.digits)⟩
  have hjoined : first ++ 0x3B :: second = [0x3B].intercalate [first, second] := by
    rw [List.intercalate_cons_cons, List.intercalate_singleton, List.append_assoc]
    rfl
  have hfields : (first ++ 0x3B :: second).splitOn 0x3B = [first, second] := by
    rw [hjoined]
    exact List.splitOn_intercalate 0x3B hdigits (List.cons_ne_nil _ _)
  constructor
  · rw [operand?_of_field (by rw [hfields]; rfl) hfirst.nonempty]
    exact congrArg some hfirst.value
  · rw [operand?_of_field (by rw [hfields]; rfl) hsecond.nonempty]
    exact congrArg some hsecond.value

end Token

/-! ## The report -/

/-- The answer to a question for the cursor is a sequence with the cursor's place. -/
theorem Interpreter.positionReport_eq (v : Viewport) :
    positionReport v = controlSequence (placeText v.row v.col) 'R' := by
  have hletter : Bytes.ofChar 'R' = 0x52 := by decide
  rw [controlSequence, placeText, Bytes.numeral, Bytes.numeral, hletter]
  simp only [positionReport, List.append_assoc, List.cons_append, List.nil_append]

namespace Display

variable {d : Display} (hmode : d.interpreter.mode = .ground)
include hmode

/-- **Asked for its cursor, a terminal answers with the cursor's place**, and nothing else comes of
it. -/
theorem feedAll_asking :
    let out := d.feedAll (controlSequence [0x36] 'n')
    out.1.interpreter.mode = .ground ∧ out.1.picture = d.picture ∧
      out.2 = controlSequence (placeText d.grid.row d.grid.col) 'R' := by
  intro out
  have htext : ∀ b ∈ [(0x36 : UInt8)], isParameter b := List.forall_mem_singleton.mpr rfl
  have hletter : Interpreter.isCommand 'n' := rfl
  obtain ⟨hground, heffect⟩ := feedAll_command hmode htext hletter
  have hparams : Token.params [0x36] = { slots := [some 6] } := by decide
  rw [hparams] at heffect
  obtain ⟨hpicture, hreply⟩ := Prod.mk.inj heffect
  exact ⟨hground, hpicture, hreply.trans (Interpreter.positionReport_eq _)⟩

variable {row col : Nat} (hrow : row < d.grid.rows) (hcol : col < d.grid.cols)
  (hrows : d.grid.rows < 2 ^ 32) (hcols : d.grid.cols < 2 ^ 32)
include hrow hcol hrows hcols

/-- **The sequence of a place sends the cursor to that place**, wherever it has been: the numbers
that spell the place are not too great for a parameter, and the place is on the screen. -/
theorem feedAll_placing :
    let out := d.feedAll (controlSequence (placeText row col) 'H')
    out.1.interpreter.mode = .ground ∧ out.1.grid = { d.grid with row, col } ∧
      out.1.picture = { d.picture with grid := out.1.grid } ∧ out.2 = [] := by
  intro out
  have hrow' := Bytes.isNumeral_numeral (row + 1)
  have hcol' := Bytes.isNumeral_numeral (col + 1)
  obtain ⟨hfirst, hsecond⟩ := Token.operand?_pair hrow' hcol'
  let it := d.closing (placeText row col) 'H'
  have hdefaults : (Interpreter.defaults 'H')[0]? = some 1 ∧
      (Interpreter.defaults 'H')[1]? = some 1 := ⟨rfl, rfl⟩
  have hget : it.params.get 0 = row + 1 ∧ it.params.get 1 = col + 1 := by
    constructor
    · rw [show it.params.get 0 = _ from d.get_closing (placeText row col) hdefaults.1, placeText,
        hfirst, Option.getD_some, Params.greatest]
      omega
    · rw [show it.params.get 1 = _ from d.get_closing (placeText row col) hdefaults.2, placeText,
        hsecond, Option.getD_some, Params.greatest]
      omega
  have hexecute : it.execute d.grid.viewport 'H' = ⟨it, [.move row col], []⟩ := by
    show (⟨it, [.move (offset 0 (it.params.get 0 - 1) d.grid.rows)
      (offset 0 (it.params.get 1 - 1) d.grid.cols)], []⟩ : Step) = _
    have hrow : offset 0 ((row + 1 : Nat) - 1) d.grid.rows = row := by
      rw [offset]
      omega
    have hcol : offset 0 ((col + 1 : Nat) - 1) d.grid.cols = col := by
      rw [offset]
      omega
    rw [hget.1, hget.2, hrow, hcol]
  exact feedAll_drawing hmode (Token.isParameter_pair hrow' hcol') rfl hexecute
    (Grid.moveCursor_inside hrow hcol)

omit hmode hrow hcol hrows hcols

/-- **What one terminal reports, another one restores.**  Whatever has happened to a terminal of
fewer than 2³² rows and columns, asked for its cursor in plain text it answers with ESC `[`, the row
and the column counted from one and spelled in decimal, with a semicolon between them, and R.  The
same with H at the end sends the cursor of any terminal of that size in plain text, wherever it is,
to just that row and column, and changes nothing else. -/
theorem report_restores (rows cols : Nat) (events : List Event)
    (hmode : ((blank rows cols).run events).interpreter.mode = .ground)
    (hrows : ((blank rows cols).run events).grid.rows < 2 ^ 32)
    (hcols : ((blank rows cols).run events).grid.cols < 2 ^ 32) :
    let d := (blank rows cols).run events
    let r := Bytes.numeral (d.grid.row + 1)
    let c := Bytes.numeral (d.grid.col + 1)
    let asked := d.feedAll (controlSequence [0x36] 'n')
    (Bytes.IsNumeral r (d.grid.row + 1) ∧ Bytes.IsNumeral c (d.grid.col + 1)) ∧
    (asked.1.interpreter.mode = .ground ∧ asked.1.picture = d.picture ∧
      asked.2 = controlSequence (r ++ 0x3B :: c) 'R') ∧
    ∀ d' : Display, d'.interpreter.mode = .ground → d'.grid.rows = d.grid.rows →
      d'.grid.cols = d.grid.cols →
      let sent := d'.feedAll (controlSequence (r ++ 0x3B :: c) 'H')
      sent.1.interpreter.mode = .ground ∧
      sent.1.grid = { d'.grid with row := d.grid.row, col := d.grid.col } ∧
      sent.1.picture = { d'.picture with grid := sent.1.grid } ∧ sent.2 = [] := by
  intro d r c asked
  obtain ⟨hsound, -⟩ := run_sound (d := blank rows cols) (Grid.sound_blank rows cols) events
  refine ⟨⟨Bytes.isNumeral_numeral _, Bytes.isNumeral_numeral _⟩, feedAll_asking hmode, ?_⟩
  intro d' hmode' hsameRows hsameCols
  have hrow : d.grid.row < d'.grid.rows := Nat.lt_of_lt_of_eq hsound.row_lt hsameRows.symm
  have hcol : d.grid.col < d'.grid.cols := Nat.lt_of_lt_of_eq hsound.col_lt hsameCols.symm
  exact feedAll_placing hmode' hrow hcol (Nat.lt_of_le_of_lt (Nat.le_of_eq hsameRows) hrows)
    (Nat.lt_of_le_of_lt (Nat.le_of_eq hsameCols) hcols)

/-- A terminal that has shrunk to twelve rows with its cursor in the last of them reports `12;4`,
and that takes the cursor of another one down there from the top. -/
theorem report_restores_shrunk :
    let events : List Event := ([0x1B, 0x5B, 0x39, 0x39, 0x3B, 0x34, 0x48] : Bytes).map .byte
      ++ [.resize 12 5]
    let d := (blank 30 7).run events
    let d' := blank 12 5
    (d.feedAll (controlSequence [0x36] 'n')).2
        = [0x1B, 0x5B, 0x31, 0x32, 0x3B, 0x34, 0x52] ∧
      (d'.feedAll [0x1B, 0x5B, 0x31, 0x32, 0x3B, 0x34, 0x48]).1.grid
        = { d'.grid with row := 11, col := 3 } := by
  intro events d d'
  have hmode : d.interpreter.mode = .ground := by decide +kernel
  have hrows : d.grid.rows < 2 ^ 32 := by decide +kernel
  have hcols : d.grid.cols < 2 ^ 32 := by decide +kernel
  obtain ⟨-, ⟨-, -, hreply⟩, hrestores⟩ := report_restores 30 7 events hmode hrows hcols
  obtain ⟨-, hgrid, -⟩ := hrestores d' rfl (by decide +kernel) (by decide +kernel)
  have hsent : controlSequence (Bytes.numeral (d.grid.row + 1) ++ 0x3B
      :: Bytes.numeral (d.grid.col + 1)) 'H' = [0x1B, 0x5B, 0x31, 0x32, 0x3B, 0x34, 0x48] := by
    decide +kernel
  constructor
  · exact hreply.trans (by decide +kernel)
  · rw [← hsent]
    exact hgrid.trans (by decide +kernel)

end Display

end BoardConsole.Terminal
