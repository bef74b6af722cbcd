import BoardConsole.Terminal.Display

/-!
# The shape of a grid

A grid has at least one row and one column, its lines are all as long as it is wide, and its cursor
is on one of its cells.  Nothing that is done to a grid changes that, and but for a change of size
nothing changes how many rows and columns there are.

- `Grid.Sound`: the shape.
- `Grid.Sound.apply`, `Grid.Sound.resize`: it is kept.
- `Action.Inside`: a cursor is sent to a cell that is there.
- `Interpreter.step_inside`: **the interpreter sends the cursor nowhere else**, so that the grid
  has nothing to correct.
-/

namespace BoardConsole.Terminal

/-! ## Lines of one length -/

/-- Every line has the length. -/
def Wide (n : Nat) (lines : List (List Cell)) : Prop := ∀ line ∈ lines, line.length = n

theorem fit_length {α : Type} (n : Nat) (filler : α) (xs : List α) :
    (fit n filler xs).length = n := by
  rw [fit, List.length_append, List.length_take, List.length_replicate]
  omega

@[simp] theorem blankBetween_length (first last : Nat) (line : List Cell) :
    (blankBetween first last line).length = line.length :=
  List.length_mapIdx

namespace Wide

variable {n : Nat} {lines more : List (List Cell)}

theorem append (h : Wide n lines) (h' : Wide n more) : Wide n (lines ++ more) :=
  List.forall_mem_append.mpr ⟨h, h'⟩

theorem take (h : Wide n lines) (k : Nat) : Wide n (lines.take k) :=
  fun line hl => h line (List.mem_of_mem_take hl)

theorem drop (h : Wide n lines) (k : Nat) : Wide n (lines.drop k) :=
  fun line hl => h line (List.mem_of_mem_drop hl)

theorem blanks (n k : Nat) : Wide n (List.replicate k (List.replicate n .blank)) := by
  intro line hl
  rw [List.eq_of_mem_replicate hl, List.length_replicate]

theorem fit (h : Wide n lines) (k : Nat) :
    Wide n (Terminal.fit k (List.replicate n .blank) lines) :=
  (h.take k).append (blanks n _)

theorem modify (h : Wide n lines) (i : Nat) {f : List Cell → List Cell}
    (hf : ∀ line, line.length = n → (f line).length = n) : Wide n (lines.modify i f) :=
  forall_mem_modify h i hf

theorem mapIdx (h : Wide n lines) {f : Nat → List Cell → List Cell}
    (hf : ∀ i line, (f i line).length = line.length) : Wide n (lines.mapIdx f) := by
  intro line hl
  obtain ⟨i, hi, rfl⟩ := List.mem_mapIdx.mp hl
  rw [hf]
  exact h _ (List.getElem_mem hi)

end Wide

/-! ## Sound grids -/

namespace Grid

/-- The grid has a cell, its lines are as long as it is wide, and the cursor is on a cell. -/
structure Sound (g : Grid) : Prop where
  wide : Wide g.cols g.lines
  row_lt : g.row < g.rows
  col_lt : g.col < g.cols
  rows_pos : 0 < g.rows := Nat.zero_lt_of_lt row_lt
  cols_pos : 0 < g.cols := Nat.zero_lt_of_lt col_lt

/-- The second grid is sound and as large as the first. -/
structure Keeps (g g' : Grid) : Prop where
  sound : g'.Sound
  rows : g'.rows = g.rows
  cols : g'.cols = g.cols

theorem Keeps.trans {g g' g'' : Grid} (h : g.Keeps g') (h' : g'.Keeps g'') : g.Keeps g'' :=
  ⟨h'.sound, h'.rows.trans h.rows, h'.cols.trans h.cols⟩

theorem sound_blank (rows cols : Nat) : (blank rows cols).Sound where
  wide := Wide.blanks _ _
  row_lt := by
    show 0 < (List.replicate (max rows 1) _).length
    rw [List.length_replicate]
    omega
  col_lt := by
    show 0 < max cols 1
    omega

variable {g : Grid}

theorem rows_resize (g : Grid) (rows cols : Nat) : (g.resize rows cols).rows = max rows 1 :=
  fit_length _ _ _

theorem Sound.resize (g : Grid) (rows cols : Nat) : (g.resize rows cols).Sound where
  wide := by
    refine Wide.fit (fun line hl => ?_) _
    obtain ⟨old, -, rfl⟩ := List.mem_map.mp hl
    exact fit_length _ _ _
  row_lt := by
    rw [rows_resize]
    show min g.row (max rows 1 - 1) < max rows 1
    omega
  col_lt := by
    show min g.col (max cols 1 - 1) < max cols 1
    omega

namespace Sound

variable (h : g.Sound)
include h

/-- Other lines of the same number and length under the same cursor. -/
theorem withLines {lines : List (List Cell)} (hwide : Wide g.cols lines)
    (hrows : lines.length = g.rows) : g.Keeps { g with lines } where
  sound :=
    { wide := hwide
      row_lt := by
        show g.row < lines.length
        rw [hrows]
        exact h.row_lt
      col_lt := h.col_lt }
  rows := hrows
  cols := rfl

/-- Another place for the cursor. -/
theorem withCursor {row col : Nat} (hrow : row < g.rows) (hcol : col < g.cols) :
    g.Keeps { g with row, col } where
  sound := { wide := h.wide, row_lt := hrow, col_lt := hcol }
  rows := rfl
  cols := rfl

/-- The cursor's line changed and its length kept. -/
theorem modify {f : List Cell → List Cell}
    (hf : ∀ line, line.length = g.cols → (f line).length = g.cols) :
    g.Keeps { g with lines := g.lines.modify g.row f } :=
  h.withLines (h.wide.modify _ hf) (List.length_modify ..)

theorem moveCursor (row col : Nat) : g.Keeps (g.moveCursor row col) := by
  have hrow := h.rows_pos
  have hcol := h.cols_pos
  exact h.withCursor (by omega) (by omega)

theorem scrollUp (n : Nat) : g.Keeps (g.scrollUp n) := by
  refine h.withLines ((h.wide.drop n).append (Wide.blanks _ _)) ?_
  rw [List.length_append, List.length_drop, List.length_replicate, Grid.rows]
  omega

theorem scrollDown (n : Nat) : g.Keeps (g.scrollDown n) := by
  refine h.withLines ((Wide.blanks _ _).append (h.wide.take _)) ?_
  rw [List.length_append, List.length_take, List.length_replicate, Grid.rows]
  omega

theorem scroll (lines : Int) : g.Keeps (g.scroll lines) := by
  unfold Grid.scroll
  split
  · exact h.scrollUp _
  · exact h.scrollDown _

theorem writeChar (char : Char) : g.Keeps (g.writeChar char) := by
  have hset := h.modify (f := (·.set g.col ⟨char, g.pen⟩)) fun line hline =>
    List.length_set.trans hline
  unfold Grid.writeChar
  dsimp only
  split
  · exact hset.trans (hset.sound.withCursor hset.sound.row_lt ‹_›)
  · split
    · exact hset.trans (hset.sound.withCursor ‹_› h.cols_pos)
    · have hscrolled := hset.sound.scrollUp 1
      exact (hset.trans hscrolled).trans
        (hscrolled.sound.withCursor hscrolled.sound.row_lt hscrolled.sound.cols_pos)

theorem eraseLine (part : LineErase) : g.Keeps (g.eraseLine part) := by
  cases part <;>
    exact h.modify fun line hline => (blankBetween_length _ _ line).trans hline

theorem blankFrom (first : Nat) :
    g.Keeps { g with lines := g.lines.mapIdx fun i line =>
      if first ≤ i then blankBetween 0 g.cols line else line } := by
  refine h.withLines (h.wide.mapIdx fun i line => ?_) List.length_mapIdx
  split
  · exact blankBetween_length ..
  · rfl

theorem eraseDisplay (part : DisplayErase) : g.Keeps (g.eraseDisplay part) := by
  cases part with
  | toEnd =>
    have herased := h.eraseLine .toEnd
    exact herased.trans (herased.sound.blankFrom _)
  | all => exact h.blankFrom 0

theorem insertLines (count : Nat) : g.Keeps (g.insertLines count) := by
  have hrow := h.row_lt
  refine h.withLines
    (((h.wide.take _).append (Wide.blanks _ _)).append ((h.wide.drop _).take _)) ?_
  simp only [List.length_append, List.length_take, List.length_drop, List.length_replicate,
    Grid.rows] at hrow ⊢
  omega

theorem deleteLines (count : Nat) : g.Keeps (g.deleteLines count) := by
  have hrow := h.row_lt
  refine h.withLines
    (((h.wide.take _).append (h.wide.drop _)).append (Wide.blanks _ _)) ?_
  simp only [List.length_append, List.length_take, List.length_drop, List.length_replicate,
    Grid.rows] at hrow ⊢
  omega

theorem insertChar : g.Keeps g.insertChar := by
  refine h.modify fun line hline => ?_
  have hcol := h.col_lt
  rw [List.length_insertIdx_of_le_length (by rw [List.length_dropLast]; omega),
    List.length_dropLast]
  omega

theorem deleteChar : g.Keeps g.deleteChar := by
  refine h.modify fun line hline => ?_
  have hcol := h.col_lt
  rw [List.length_append, List.length_eraseIdx_of_lt (by omega), List.length_singleton]
  omega

/-- Another pen, and another number of rings. -/
theorem withPen (pen : Pen) (bells : Nat) : g.Keeps { g with pen, bells } :=
  ⟨{ wide := h.wide, row_lt := h.row_lt, col_lt := h.col_lt }, rfl, rfl⟩

/-- **Whatever is done to a grid**, its shape and its size stay. -/
theorem apply (a : Action) : g.Keeps (g.apply a) := by
  cases a with
  | move row col => exact h.moveCursor row col
  | write char => exact h.writeChar char
  | eraseLine part => exact h.eraseLine part
  | eraseDisplay part => exact h.eraseDisplay part
  | scroll lines => exact h.scroll lines
  | insertLines count => exact h.insertLines count
  | deleteLines count => exact h.deleteLines count
  | insertChar => exact h.insertChar
  | deleteChar => exact h.deleteChar
  | enable attributes => exact h.withPen _ _
  | disable attributes => exact h.withPen _ _
  | setColors foreground background => exact h.withPen _ _
  | bell => exact h.withPen _ _

theorem applyAll (actions : List Action) : g.Keeps (g.applyAll actions) := by
  induction actions generalizing g with
  | nil => exact ⟨h, rfl, rfl⟩
  | cons a actions ih => exact (h.apply a).trans (ih (h.apply a).sound)

end Sound

end Grid

/-! ## Where the cursor is sent -/

/-- The screen has a cell and the cursor is on one. -/
structure Viewport.Sound (v : Viewport) : Prop where
  row_lt : v.row < v.rows
  col_lt : v.col < v.cols

/-- The cursor, if it is sent anywhere, is sent to a cell of the screen. -/
def Action.Inside (v : Viewport) : Action → Prop
  | .move row col => row < v.rows ∧ col < v.cols
  | _ => True

/-- All actions send the cursor to cells of the screen. -/
def Inside (v : Viewport) (actions : List Action) : Prop := ∀ a ∈ actions, a.Inside v

theorem offset_lt {len : Nat} (h : 0 < len) (pos : Nat) (delta : Int) :
    offset pos delta len < len := by
  rw [offset]
  omega

namespace Inside

variable {v : Viewport}

theorem nil : Inside v [] := fun _ h => absurd h List.not_mem_nil

theorem cons {a : Action} {actions : List Action} (h : a.Inside v) (hrest : Inside v actions) :
    Inside v (a :: actions) :=
  List.forall_mem_cons.mpr ⟨h, hrest⟩

theorem one {a : Action} (h : a.Inside v) : Inside v [a] := cons h nil

theorem append {actions more : List Action} (h : Inside v actions) (hmore : Inside v more) :
    Inside v (actions ++ more) :=
  List.forall_mem_append.mpr ⟨h, hmore⟩

theorem replicate {a : Action} (n : Nat) (h : a.Inside v) : Inside v (List.replicate n a) := by
  intro x hx
  rw [List.eq_of_mem_replicate hx]
  exact h

end Inside

namespace Interpreter

variable {v : Viewport}

theorem render_inside (it : Interpreter) (change : Rendition) : Inside v (it.render change).2 := by
  cases change with
  | reset => exact .cons trivial (.one trivial)
  | _ => exact .one trivial

theorem renderAll_inside (it : Interpreter) (values : List Nat) :
    Inside v (it.renderAll values).2 := by
  induction values generalizing it with
  | nil => exact .nil
  | cons n values ih =>
    rw [renderAll]
    cases Rendition.decode? n with
    | none => exact ih it
    | some change => exact (render_inside it change).append (ih _)

theorem eraseBefore_inside (hv : v.Sound) : Inside v (eraseBefore v) := by
  refine Inside.append (fun a ha => ?_) (.cons ⟨hv.row_lt, hv.col_lt⟩ (.one trivial))
  obtain ⟨r, hr, ha⟩ := List.mem_flatMap.mp ha
  have hrow : r < v.rows := Nat.lt_trans (List.mem_range.mp hr) hv.row_lt
  have hcol : 0 < v.cols := Nat.zero_lt_of_lt hv.col_lt
  exact Inside.cons (a := .move r 0) ⟨hrow, hcol⟩ (.one (a := .eraseLine .all) trivial) a ha

theorem execute_inside (it : Interpreter) (hv : v.Sound) (command : Char) :
    Inside v (it.execute v command).actions := by
  have hrows : 0 < v.rows := Nat.zero_lt_of_lt hv.row_lt
  have hcols : 0 < v.cols := Nat.zero_lt_of_lt hv.col_lt
  unfold execute
  dsimp only
  split
  -- relative motion in the column or in the row, and absolute motion
  case h_1 => exact .one ⟨offset_lt hrows _ _, hv.col_lt⟩
  case h_2 => exact .one ⟨offset_lt hrows _ _, hv.col_lt⟩
  case h_3 => exact .one ⟨hv.row_lt, offset_lt hcols _ _⟩
  case h_4 => exact .one ⟨hv.row_lt, offset_lt hcols _ _⟩
  case h_5 => exact .one ⟨offset_lt hrows _ _, hcols⟩
  case h_6 => exact .one ⟨offset_lt hrows _ _, hcols⟩
  case h_7 => exact .one ⟨hv.row_lt, offset_lt hcols _ _⟩
  case h_8 => exact .one ⟨offset_lt hrows _ _, offset_lt hcols _ _⟩
  case h_9 => exact .one ⟨offset_lt hrows _ _, offset_lt hcols _ _⟩
  -- erasing the display or the line
  case h_10 =>
    split
    · exact .one trivial
    · exact eraseBefore_inside hv
    · exact .one trivial
    · exact .one trivial
    · exact .nil
  case h_11 =>
    split
    · exact .one trivial
    · exact .one trivial
    · exact .one trivial
    · exact .nil
  -- deleting and inserting characters
  case h_14 => exact .replicate _ trivial
  case h_15 => exact .replicate _ trivial
  case h_18 => exact renderAll_inside it _
  -- reports, the saved cursor and unknown commands
  case h_19 => split <;> exact .nil
  case h_22 => exact .nil
  case h_23 => exact .one ⟨by omega, by omega⟩
  case h_24 => exact .nil
  all_goals exact .one trivial

theorem ground_inside (it : Interpreter) (hv : v.Sound) (b : UInt8) :
    Inside v (it.ground v b).actions := by
  have hrows : 0 < v.rows := Nat.zero_lt_of_lt hv.row_lt
  have hcols : 0 < v.cols := Nat.zero_lt_of_lt hv.col_lt
  unfold ground
  split
  · exact .one trivial
  · exact .one ⟨hv.row_lt, offset_lt hcols _ _⟩
  · exact .one ⟨hv.row_lt, by omega⟩
  · split
    · exact .one ⟨‹_›, hv.col_lt⟩
    · exact .one trivial
  · exact .one ⟨offset_lt hrows _ _, hv.col_lt⟩
  · exact .cons trivial (.one ⟨hrows, hcols⟩)
  · exact .one ⟨hv.row_lt, hcols⟩
  · exact .nil
  · exact .one trivial

theorem escape_inside (it : Interpreter) (hv : v.Sound) (b : UInt8) :
    Inside v (it.escape b).actions := by
  unfold escape
  split
  · exact .nil
  · exact .cons trivial (.cons trivial (.cons trivial
      (.one ⟨Nat.zero_lt_of_lt hv.row_lt, Nat.zero_lt_of_lt hv.col_lt⟩)))
  · exact .cons trivial (.one trivial)

/-- **The interpreter sends the cursor to cells of the screen only**, in every state and for every
byte. -/
theorem step_inside (it : Interpreter) (hv : v.Sound) (b : UInt8) :
    Inside v (it.step v b).actions := by
  unfold step
  split
  · exact ground_inside it hv b
  · exact escape_inside it hv b
  · split
    · exact .nil
    · split
      · exact .nil
      · exact execute_inside _ hv _

end Interpreter

namespace Grid

variable {g : Grid}

theorem Sound.viewport (h : g.Sound) : g.viewport.Sound := ⟨h.row_lt, h.col_lt⟩

/-- A cell of the screen is where the cursor ends up that is sent there. -/
theorem moveCursor_inside {row col : Nat} (hrow : row < g.rows) (hcol : col < g.cols) :
    g.moveCursor row col = { g with row, col } := by
  have hrow' : min row (g.rows - 1) = row := by omega
  have hcol' : min col (g.cols - 1) = col := by omega
  rw [moveCursor, hrow', hcol']

end Grid

end BoardConsole.Terminal
