import BoardConsole.Interface.Screen
import BoardConsole.Proofs.Acts
import BoardConsole.Proofs.Bounds

/-!
# The panes on the screen

The console, a divider, the debug pane and the command line share the rows of the screen.  How many
each of them gets is said by formulas with thresholds, and the two grids, their cursors and the view
of the command line are kept by others; they have to agree for every size that the screen comes to
have, and after everything that happens.

- `Layout.parts`: the rows of each part, from the top.
- `Layout.parts_ofSize`: **the parts are the rows of the screen**, one after another.
- `App.OnScreen`: states that inputs lead to, with the size of the screen.
- `App.Fits`: both grids are as large as their panes.
- `App.OnScreen.fits`: they always are.
- `App.panes_tile`: what that comes to on the screen.
-/

namespace BoardConsole.Interface

open Terminal (Display Grid)

/-! ## Rows -/

namespace Layout

/-- The rows of the console, of the divider, of the debug pane and of the command line. -/
def parts (l : Layout) : List (List Nat) :=
  [List.range l.consoleRows, [l.divider], List.range' l.debugTop l.debugRows, [l.commandRow]]

/-- The rows of the pane that keys are for. -/
def focused (l : Layout) : Focus → List Nat
  | .console => List.range l.consoleRows
  | .command => [l.commandRow]

section

variable (rows cols : Nat)

/-- On a small screen the console leaves five rows to the rest, and everything else there is told by
its height. -/
theorem consoleRows_ofSize : (rows < 30 → (ofSize rows cols).consoleRows = max (rows - 5) 1) ∧
    (30 ≤ rows → (ofSize rows cols).consoleRows = 25) := by
  constructor
  · intro hsmall
    exact if_pos hsmall
  · intro hlarge
    exact if_neg (Nat.not_lt.mpr hlarge)

theorem consoleRows_pos : 0 < (ofSize rows cols).consoleRows := by
  obtain ⟨hsmall, hlarge⟩ := consoleRows_ofSize rows cols
  by_cases h : rows < 30
  · rw [hsmall h]
    omega
  · rw [hlarge (by omega)]
    omega

theorem debugRows_pos : 0 < (ofSize rows cols).debugRows := Nat.le_max_right _ _

theorem cols_pos : 0 < (ofSize rows cols).cols := Nat.le_max_right _ _

/-- Each part begins where the one above it ends. -/
theorem ofSize_consecutive :
    let l := ofSize rows cols
    l.divider = l.consoleRows ∧ l.debugTop = l.divider + 1 ∧
      l.debugTop + l.debugRows = l.commandRow := by
  intro l
  have hdebugRows : l.debugRows = max (rows - (l.consoleRows + 2)) 1 := rfl
  have hcommandRow : l.commandRow = max (rows - 1) (l.consoleRows + 2) := rfl
  have hdebugTop : l.debugTop = l.consoleRows + 1 := rfl
  refine ⟨rfl, rfl, ?_⟩
  omega

/-- The command line has the last row of the screen, or the fourth on a smaller one. -/
theorem commandRow_ofSize : (ofSize rows cols).commandRow + 1 = max rows 4 := by
  obtain ⟨hsmall, hlarge⟩ := consoleRows_ofSize rows cols
  have hcommandRow : (ofSize rows cols).commandRow
      = max (rows - 1) ((ofSize rows cols).consoleRows + 2) := rfl
  by_cases h : rows < 30
  · have := hsmall h
    omega
  · have := hlarge (by omega)
    omega

/-- **The parts are the rows of the screen**, from the first to the last and each of them once; a
screen of less than four rows has no room for them. -/
theorem parts_ofSize : (ofSize rows cols).parts.flatten = List.range (max rows 4) := by
  obtain ⟨hdivider, hdebugTop, hcommandRow⟩ := ofSize_consecutive rows cols
  have hflatten : (ofSize rows cols).parts.flatten
      = List.range (ofSize rows cols).consoleRows ++ ([(ofSize rows cols).divider]
        ++ (List.range' (ofSize rows cols).debugTop (ofSize rows cols).debugRows
          ++ [(ofSize rows cols).commandRow])) := rfl
  rw [hflatten, ← commandRow_ofSize rows cols, ← hcommandRow, hdebugTop, hdivider,
    List.range'_eq_map_range, List.range_succ, List.range_add, List.range_succ]
  simp only [List.append_assoc]

end

end Layout

/-! ## Grids in their panes -/

theorem clearGrid_keeps {g : Grid} (h : g.Sound) : g.Keeps (clearGrid g) := h.applyAll _

namespace DebugPane

variable {g : Grid} (h : g.Sound)
include h

theorem write_keeps (text : List Char) : g.Keeps (write g text) := by
  have herased := h.apply (.eraseLine .toEnd)
  exact herased.trans (herased.sound.applyAll _)

theorem newline_keeps : g.Keeps (newline g) := by
  unfold newline
  split
  · have hscrolled := h.apply (.scroll 1)
    exact hscrolled.trans (hscrolled.sound.apply _)
  · exact h.apply _

theorem line_keeps (text : List Char) : g.Keeps (line g text) := by
  have hwritten := write_keeps h text
  unfold line
  dsimp only
  split
  · exact hwritten.trans (newline_keeps hwritten.sound)
  · exact hwritten

theorem progress_keeps (text : List Char) : g.Keeps (progress g text) := by
  have hwritten := write_keeps h text
  exact hwritten.trans (hwritten.sound.apply (.move (write g text).row 0))

end DebugPane

theorem feedAll_keeps {d : Display} (h : d.grid.Sound) (bytes : Bytes) :
    d.grid.Keeps (d.feedAll bytes).1.grid := by
  induction bytes generalizing d with
  | nil => exact ⟨h, rfl, rfl⟩
  | cons b bytes ih =>
    have hfed : d.grid.Keeps (d.feed b).1.grid := h.applyAll _
    rw [Display.feedAll_cons]
    exact hfed.trans (ih hfed.sound)

namespace App

/-- States that inputs lead to, with the columns and rows that the screen has had last. -/
inductive OnScreen : Nat → Nat → App → Prop
  | start (cols rows : Nat) : OnScreen cols rows (.start cols rows)
  /-- There is something to show. -/
  | event {cols rows : Nat} {a : App} (h : OnScreen cols rows a) (event : Console.Event) :
    OnScreen cols rows (a.handle (.event event))
  /-- A key is pressed. -/
  | key {cols rows : Nat} {a : App} (h : OnScreen cols rows a) (k : Key) :
    OnScreen cols rows (a.handle (.key k))
  /-- The screen has another size from now on. -/
  | resize {cols rows : Nat} {a : App} (h : OnScreen cols rows a) (cols' rows' : Nat) :
    OnScreen cols' rows' (a.handle (.resize cols' rows'))
  /-- The screen is drawn. -/
  | draw {cols rows : Nat} {a : App} (h : OnScreen cols rows a) : OnScreen cols rows a.draw.2
  /-- What has been asked for is taken, or nobody listens any more. -/
  | served {cols rows : Nat} {a : App} (h : OnScreen cols rows a) (quit : Option String)
    (consoleOpen debugOpen : Bool) (requests : Array Console.Request)
    (commands : Array (List String)) :
    OnScreen cols rows { a with quit, consoleOpen, debugOpen, requests, commands }

/-- The layout is that of the screen, and both grids are as large as their panes. -/
structure Fits (cols rows : Nat) (a : App) : Prop where
  layout : a.layout = .ofSize rows cols
  console : a.console.grid.Sound
  consoleRows : a.console.grid.rows = a.layout.consoleRows
  consoleCols : a.console.grid.cols = a.layout.cols
  debug : a.debug.Sound
  debugRows : a.debug.rows = a.layout.debugRows
  debugCols : a.debug.cols = a.layout.cols

namespace Fits

/-- No pane is so small that its grid would have to be larger. -/
theorem start (cols rows : Nat) : (App.start cols rows).Fits cols rows where
  layout := rfl
  console := Grid.sound_blank _ _
  consoleRows := List.length_replicate.trans (Nat.max_eq_left (Layout.consoleRows_pos rows cols))
  consoleCols := Nat.max_eq_left (Layout.cols_pos rows cols)
  debug := Grid.sound_blank _ _
  debugRows := List.length_replicate.trans (Nat.max_eq_left (Layout.debugRows_pos rows cols))
  debugCols := Nat.max_eq_left (Layout.cols_pos rows cols)

/-- Whatever the grids have been before. -/
theorem resize (a : App) (cols rows : Nat) : (a.resize cols rows).Fits cols rows where
  layout := rfl
  console := .resize _ _ _
  consoleRows := (Grid.rows_resize _ _ _).trans
    (Nat.max_eq_left (Layout.consoleRows_pos rows cols))
  consoleCols := Nat.max_eq_left (Layout.cols_pos rows cols)
  debug := .resize _ _ _
  debugRows := (Grid.rows_resize _ _ _).trans (Nat.max_eq_left (Layout.debugRows_pos rows cols))
  debugCols := Nat.max_eq_left (Layout.cols_pos rows cols)

variable {cols rows : Nat} {a : App} (h : a.Fits cols rows)
include h

theorem of_keeps {b : App} (hlayout : b.layout = a.layout)
    (hconsole : a.console.grid.Keeps b.console.grid) (hdebug : a.debug.Keeps b.debug) :
    b.Fits cols rows where
  layout := hlayout.trans h.layout
  console := hconsole.sound
  consoleRows := by rw [hconsole.rows, h.consoleRows, hlayout]
  consoleCols := by rw [hconsole.cols, h.consoleCols, hlayout]
  debug := hdebug.sound
  debugRows := by rw [hdebug.rows, h.debugRows, hlayout]
  debugCols := by rw [hdebug.cols, h.debugCols, hlayout]

/-- Nothing has happened to the grids. -/
theorem of_same {b : App} (hlayout : b.layout = a.layout) (hconsole : b.console = a.console)
    (hdebug : b.debug = a.debug) : b.Fits cols rows := by
  refine h.of_keeps hlayout ?_ ?_
  · rw [hconsole]
    exact ⟨h.console, rfl, rfl⟩
  · rw [hdebug]
    exact ⟨h.debug, rfl, rfl⟩

/-- Something has happened to the debug pane. -/
theorem withDebug {g : Grid} (hdebug : a.debug.Keeps g) :
    ({ a with debug := g } : App).Fits cols rows :=
  h.of_keeps rfl ⟨h.console, rfl, rfl⟩ hdebug

/-- Something has happened to the console. -/
theorem withConsole {d : Display} (hconsole : a.console.grid.Keeps d.grid) :
    ({ a with console := d } : App).Fits cols rows :=
  h.of_keeps rfl hconsole ⟨h.debug, rfl, rfl⟩

/-- Nothing that a key does changes the size of a grid. -/
theorem act (x : Act) : (a.act x).Fits cols rows := by
  obtain ⟨hlayout, hconsole, hdebug⟩ := a.act_shown x
  refine h.of_keeps hlayout ?_ ?_
  · rcases hconsole with hkept | hclear
    · rw [hkept]
      exact ⟨h.console, rfl, rfl⟩
    · rw [hclear]
      exact clearGrid_keeps h.console
  · rcases hdebug with hkept | ⟨text, hline⟩ | hclear
    · rw [hkept]
      exact ⟨h.debug, rfl, rfl⟩
    · rw [hline]
      exact DebugPane.line_keeps h.debug text
    · rw [hclear]
      exact clearGrid_keeps h.debug

theorem actAll (acts : List Act) : (a.actAll acts).Fits cols rows := by
  induction acts generalizing a with
  | nil => exact h
  | cons x acts ih => exact ih (h.act x)

theorem event (event : Console.Event) : (a.handle (.event event)).Fits cols rows := by
  cases event with
  | console bytes =>
    show (a.consoleOutput bytes).Fits cols rows
    rw [consoleOutput_acts]
    exact (h.withConsole (feedAll_keeps h.console bytes)).actAll _
  | line text => exact h.withDebug (DebugPane.line_keeps h.debug _)
  | progress text => exact h.withDebug (DebugPane.progress_keeps h.debug _)
  | quit reason => exact h.of_same rfl rfl rfl

theorem key (k : Key) : (a.handle (.key k)).Fits cols rows := by
  show (a.press k).Fits cols rows
  rw [press_acts]
  exact h.actAll _

end Fits

/-- **Both grids always are as large as their panes**: what one input does, then all of them. -/
theorem OnScreen.fits {cols rows : Nat} {a : App} (h : a.OnScreen cols rows) :
    a.Fits cols rows := by
  induction h with
  | start cols rows => exact .start cols rows
  | event _ event ih => exact ih.event event
  | key _ k ih => exact ih.key k
  | resize _ cols rows => exact .resize _ cols rows
  | draw _ ih => exact ih.of_keeps rfl (ih.console.withPen _ 0) ⟨ih.debug, rfl, rfl⟩
  | served _ _ _ _ _ _ ih => exact ih.of_same rfl rfl rfl

end App

/-! ## The cursor -/

/-- The cursor of the command line is in its view. -/
theorem CommandLine.view_cursor_lt (c : CommandLine) {width : Nat} (h : 0 < width) :
    (c.view width).2 < width := by
  unfold view
  dsimp only
  rw [if_neg (by omega)]
  split
  · show c.before.length < width
    omega
  · split
    · show c.before.length < width
      omega
    · show width - min (width / 8) c.after.length - 1 < width
      omega

/-- What keys are for is one of the parts. -/
theorem Layout.focused_mem_parts (l : Layout) (focus : Focus) : l.focused focus ∈ l.parts := by
  cases focus with
  | console => exact List.mem_cons_self
  | command => exact List.mem_of_getLast? rfl

/-- Its rows are on the screen, if that has four rows. -/
theorem Layout.lt_of_mem_parts {rows cols row : Nat} {part : List Nat}
    (hpart : part ∈ (ofSize rows cols).parts) (hrow : row ∈ part) : row < max rows 4 := by
  have hmem : row ∈ (ofSize rows cols).parts.flatten := List.mem_flatten_of_mem hpart hrow
  rw [parts_ofSize] at hmem
  exact List.mem_range.mp hmem

/-- A coordinate of sixteen bits is sent as it is, counted from one. -/
theorem moveTo_eq {col row : Nat} (hcol : col < 0x10000) (hrow : row < 0x10000) :
    moveTo col row = control s!"{row + 1};{col + 1}H" := by
  rw [moveTo, coordinate, coordinate, Nat.mod_eq_of_lt hcol, Nat.mod_eq_of_lt hrow]

namespace App

/-- The cursor is put on the pane that keys are for. -/
theorem Fits.finalCursor {cols rows : Nat} {a : App} (h : a.Fits cols rows) :
    a.finalCursor.2 ∈ a.layout.focused a.focus ∧ a.finalCursor.1 < a.layout.cols := by
  unfold App.finalCursor Layout.focused
  cases a.focus with
  | console =>
    have hrow := h.console.row_lt
    have hcol := h.console.col_lt
    rw [h.consoleRows] at hrow
    rw [h.consoleCols] at hcol
    exact ⟨List.mem_range.mpr hrow, hcol⟩
  | command =>
    refine ⟨List.mem_singleton.mpr rfl, a.command.view_cursor_lt ?_⟩
    rw [h.layout]
    exact Layout.cols_pos rows cols

/-- **The panes tile the screen**, after whatever has happened and on a screen of any size that
sixteen bits can say.

* Both grids are exactly as large as the layout says, which is that of the screen's size.
* The console, the divider, the debug pane and the command line follow one another, and together
  they have every row of the screen once.  A screen of less than four rows is taken for one of four.
* The last that a drawing does is to put the cursor into the pane that keys are for. -/
theorem panes_tile {cols rows : Nat} {a : App} (h : a.OnScreen cols rows) (hcols : cols < 0x10000)
    (hrows : rows < 0x10000) :
    let l := a.layout
    let row := a.finalCursor.2
    let col := a.finalCursor.1
    (l = Layout.ofSize rows cols ∧
      a.console.grid.rows = l.consoleRows ∧ a.console.grid.cols = l.cols ∧
      a.debug.rows = l.debugRows ∧ a.debug.cols = l.cols) ∧
    (l.divider = l.consoleRows ∧ l.debugTop = l.divider + 1 ∧
      l.debugTop + l.debugRows = l.commandRow ∧ l.parts.flatten = List.range (max rows 4)) ∧
    (4 ≤ rows → ∀ part ∈ l.parts, ∀ i ∈ part, i < rows) ∧
    (∃ before, a.draw.1 = before ++ control s!"{row + 1};{col + 1}H" ++ control "?25h") ∧
    row ∈ l.focused a.focus ∧ col < l.cols := by
  intro l row col
  have hfits := h.fits
  have hlayout : l = Layout.ofSize rows cols := hfits.layout
  obtain ⟨hrow, hcol⟩ := hfits.finalCursor
  have hparts : ∀ part ∈ l.parts, ∀ i ∈ part, i < max rows 4 := by
    rw [hlayout]
    exact fun part hpart i hi => Layout.lt_of_mem_parts hpart hi
  refine ⟨⟨hlayout, hfits.consoleRows, hfits.consoleCols, hfits.debugRows, hfits.debugCols⟩, ?_, ?_,
    ?_, hrow, hcol⟩
  · rw [hlayout]
    obtain ⟨hdivider, hdebugTop, hcommandRow⟩ := Layout.ofSize_consecutive rows cols
    exact ⟨hdivider, hdebugTop, hcommandRow, Layout.parts_ofSize rows cols⟩
  · intro hroom part hpart i hi
    have := hparts part hpart i hi
    omega
  · have hwidth : l.cols = max cols 1 := by
      rw [hlayout]
      rfl
    have hsentRow : row < 0x10000 := by
      have := hparts _ (l.focused_mem_parts a.focus) row hrow
      omega
    have hsentCol : col < 0x10000 := by
      have : col < l.cols := hcol
      omega
    rw [← moveTo_eq hsentCol hsentRow]
    exact ⟨_, rfl⟩

/-- Three letters are typed on the command line, and then the screen shrinks to three columns and
five rows: the console and the divider have one row each, the debug pane has two, and the cursor is
in the last column of the last row. -/
theorem panes_tile_shrunk :
    let typed := (App.start 80 24).handle (.key { code := .function 2 })
    let letters := ((typed.handle (.key { code := .char 'a' })).handle
      (.key { code := .char 'b' })).handle (.key { code := .char 'c' })
    let a := letters.handle (.resize 3 5)
    a.layout.parts = [[0], [1], [2, 3], [4]] ∧ a.debug.rows = 2 ∧
      ∃ before, a.draw.1 = before ++ control "5;3H" ++ control "?25h" := by
  intro typed letters a
  have htyped : OnScreen 80 24 typed := (OnScreen.start 80 24).key _
  have hletters : OnScreen 80 24 letters := ((htyped.key _).key _).key _
  obtain ⟨⟨-, -, -, hdebug, -⟩, -, -, hdrawn, -⟩ :=
    panes_tile (hletters.resize 3 5) (by decide) (by decide)
  have hcursor : a.finalCursor = (2, 4) := by decide +kernel
  have hplace : s!"{a.finalCursor.2 + 1};{a.finalCursor.1 + 1}H" = "5;3H" := by
    rw [hcursor]
    decide
  refine ⟨by decide +kernel, hdebug.trans (by decide +kernel), ?_⟩
  rw [← hplace]
  exact hdrawn

end App

end BoardConsole.Interface
