import BoardConsole.Proofs.FullReset
import BoardConsole.Proofs.LogTail
import BoardConsole.Proofs.Panes

/-!
# The debug pane as a log

The debug pane decides by the length of a line whether the cursor has to go on to the next row,
while the grid wraps and scrolls by itself.  Together they keep a log to which lines are added: the
cursor is at the start of the row after the last line, and what stands in that row is never part of
the log.

- `DebugPane.Tidy`: the cursor is at the start of a row, and there is nothing below.
- `DebugPane.textRows`: the rows that a line takes.
- `DebugPane.line_eq`, `DebugPane.progress_eq`: what is written is added to the log.
- `App.tidy_handle`: **the debug pane stays tidy**, whatever happens.
- `DebugPane.emptied`: the pane without what stands in the row of the cursor.
- `App.handle_emptied`: **what stands there makes no difference** but in that row.
- `App.debug_log`: the log.
-/

namespace BoardConsole.Interface

open Terminal

namespace DebugPane

/-! ## Tidy grids -/

/-- The cursor is at the start of a row, there is nothing below, and the pen is the default one. -/
structure Tidy (g : Grid) : Prop where
  sound : g.Sound
  col : g.col = 0
  pen : g.pen = {}
  below : ∀ i, g.row < i → i < g.rows → g.lines[i]? = some g.blankLine

/-- The lines above the cursor. -/
def logged (g : Grid) : List (List Cell) := g.lines.take g.row

/-- The grid without what stands in the row of the cursor. -/
def emptied (g : Grid) : Grid := g.eraseLine .all

/-- The lines above the cursor stay as they are. -/
theorem logged_emptied (g : Grid) : logged (emptied g) = logged g := by
  refine List.ext_getElem? fun i => ?_
  show ((g.lines.modify g.row _).take g.row)[i]? = (g.lines.take g.row)[i]?
  rw [List.getElem?_take, List.getElem?_take]
  by_cases hi : i < g.row
  · rw [if_pos hi, if_pos hi]
    exact List.getElem?_modify_ne _ _ (Nat.ne_of_gt hi)
  · rw [if_neg hi, if_neg hi]

/-- The rows that a line of text takes: as many as it needs, and one if it is empty. -/
def textRows (width : Nat) (text : List Char) : List (List Cell) :=
  cellRows width (max 1 ((text.length + width - 1) / width)) (text.map (Cell.mk · {}))

/-- The end of a log is tidy. -/
theorem tidy_tail {g : Grid} {log : List (List Cell)} (hsound : (g.tail log 0).Sound)
    (hpen : g.pen = {}) : Tidy (g.tail log 0) where
  sound := hsound
  col := rfl
  pen := hpen
  below := by
    intro i hrow hi
    have hrow : min log.length g.rows - 1 < i := hrow
    rw [Grid.rows_tail] at hi
    rw [Grid.getElem?_tail, if_pos hi, List.getElem?_eq_none (by omega)]
    rfl

/-- A blank grid is tidy. -/
theorem tidy_of_blank {g : Grid} (hsound : g.Sound) (hcol : g.col = 0) (hpen : g.pen = {})
    (hblank : ∀ line ∈ g.lines, line = g.blankLine) : Tidy g where
  sound := hsound
  col := hcol
  pen := hpen
  below := by
    intro i _ hi
    rw [List.getElem?_eq_getElem hi, hblank _ (List.getElem_mem hi)]

theorem tidy_blank (rows cols : Nat) : Tidy (.blank rows cols) :=
  tidy_of_blank (Grid.sound_blank rows cols) rfl rfl fun _ => List.eq_of_mem_replicate

theorem tidy_clearGrid {g : Grid} (h : g.Sound) : Tidy (clearGrid g) := by
  have hclear : clearGrid g = g.reset := rfl
  have hsound := (clearGrid_keeps h).sound
  rw [hclear, Grid.reset_eq h] at hsound ⊢
  exact tidy_of_blank hsound rfl rfl fun _ => List.eq_of_mem_replicate

namespace Tidy

variable {g : Grid} (h : Tidy g)
include h

/-- A smaller grid may have the cursor in a row with a line in it. -/
theorem resize (rows cols : Nat) : Tidy (g.resize rows cols) where
  sound := .resize g rows cols
  col := by
    show min g.col _ = 0
    rw [h.col, Nat.zero_min]
  pen := h.pen
  below := by
    intro i hrow hi
    have hrow : min g.row (max rows 1 - 1) < i := hrow
    rw [Grid.rows_resize] at hi
    show (fit (max rows 1) (List.replicate (max cols 1) .blank)
      (g.lines.map (fit (max cols 1) .blank)))[i]? = some (List.replicate (max cols 1) .blank)
    rw [getElem?_fit, if_pos hi, List.getElem?_map]
    by_cases hold : i < g.rows
    · rw [h.below i (by omega) hold, Option.map_some, Option.getD_some, Grid.blankLine,
        fit_replicate]
    · rw [List.getElem?_eq_none (Nat.le_of_not_lt hold)]
      rfl

/-- **The row of the cursor ends a log**, whatever is done to it. -/
theorem modify_eq {f : List Cell → List Cell} {line : List Cell}
    (hf : ∀ old ∈ g.lines, f old = line) :
    ({ g with lines := g.lines.modify g.row f } : Grid) = g.tail (logged g ++ [line]) 0 := by
  have hrow : g.row < g.rows := h.sound.row_lt
  have hlogged : (logged g).length = g.row := by
    rw [logged, List.length_take]
    exact Nat.min_eq_left (Nat.le_of_lt hrow)
  have hlength : (logged g ++ [line]).length = g.row + 1 := by
    rw [List.length_append, hlogged, List.length_singleton]
  have hfirst : (logged g ++ [line]).length - g.rows = 0 := by omega
  refine Grid.eq_tail ?_ ?_ fun i => ?_
  · rw [← h.col]
  · show g.row = _
    omega
  · show (g.lines.modify g.row f)[i]? = _
    rw [hfirst, Nat.add_zero, List.getElem?_modify, List.getElem?_append, hlogged,
      List.getElem?_singleton, Option.map_eq_map]
    rcases Nat.lt_trichotomy i g.row with habove | rfl | hbelow
    · rw [if_pos (by omega), if_pos habove, logged, List.getElem?_take_of_lt habove,
        List.getElem?_eq_getElem (Nat.lt_trans habove hrow), Option.map_some, if_neg (by omega)]
      rfl
    · rw [if_pos hrow, if_neg (Nat.lt_irrefl _), if_pos (Nat.sub_self _),
        List.getElem?_eq_getElem hrow, Option.map_some, if_pos rfl, hf _ (List.getElem_mem hrow)]
      rfl
    · rw [if_neg (Nat.lt_asymm hbelow), if_neg (show ¬ i - g.row = 0 by omega)]
      by_cases hi : i < g.rows
      · rw [h.below i hbelow hi, if_pos hi, Option.map_some, if_neg (Nat.ne_of_lt hbelow)]
        rfl
      · rw [List.getElem?_eq_none (Nat.le_of_not_lt hi), if_neg hi]
        rfl

theorem emptied_eq : emptied g = g.tail (logged g ++ [g.blankLine]) 0 :=
  h.modify_eq fun _ hold => blankBetween_all (h.sound.wide _ hold)

/-- Before anything is written its row is emptied. -/
theorem erase_eq : g.apply (.eraseLine .toEnd) = emptied g := by
  have hwhole : blankBetween g.col g.cols = blankBetween 0 g.cols := by rw [h.col]
  exact congrArg (fun f => ({ g with lines := g.lines.modify g.row f } : Grid)) hwhole

/-- **What is written is added to the log.** -/
theorem write_eq (text : List Char) : write g text
    = g.tail (logged g ++ cellRows g.cols (text.length / g.cols + 1) (text.map (Cell.mk · {})))
        (text.length % g.cols) := by
  rw [write, h.erase_eq, h.emptied_eq, Grid.write_tail h.sound.rows_pos h.sound.cols_pos, h.pen]

end Tidy

/-! ## Lines -/

theorem newline_eq {g : Grid} (h : g.Sound) : newline g = g.nextRow := by
  have hrow := h.row_lt
  have hscrolled : (g.scrollUp 1).rows = g.rows := (h.scrollUp 1).rows
  unfold newline Grid.nextRow
  by_cases hlast : g.rows ≤ g.row + 1
  · rw [if_pos hlast, if_neg (by omega)]
    show ({ g.scrollUp 1 with row := min g.row ((g.scrollUp 1).rows - 1), col := min 0 _ } : Grid)
      = _
    rw [hscrolled, Nat.zero_min, Nat.min_eq_left (by omega)]
    rfl
  · rw [if_neg hlast, if_pos (by omega)]
    show ({ g with row := min (g.row + 1) (g.rows - 1), col := min 0 _ } : Grid) = _
    rw [Nat.zero_min, Nat.min_eq_left (by omega)]

/-- A text that fills its rows ends in front of a blank one, which a text that does not still has to
be given. -/
theorem textRows_eq {width : Nat} (hwidth : 0 < width) (text : List Char) :
    textRows width text ++ [List.replicate width .blank]
      = if text.length = 0 ∨ text.length % width ≠ 0 then
          cellRows width (text.length / width + 1) (text.map (Cell.mk · {}))
            ++ [List.replicate width .blank]
        else cellRows width (text.length / width + 1) (text.map (Cell.mk · {})) := by
  have hlength : (text.map (Cell.mk · {})).length = text.length := List.length_map _
  have hlt := Nat.mod_lt text.length hwidth
  have hposition := Nat.mod_add_div text.length width
  unfold textRows
  by_cases hends : text.length % width = 0
  · have hrows : (text.length + width - 1) / width = text.length / width :=
      ((Nat.div_mod_unique hwidth).mpr ⟨show width - 1 + _ = _ by omega, by omega⟩).1
    by_cases hempty : text.length = 0
    · rw [if_pos (.inl hempty), hrows, hempty, Nat.zero_div]
      rfl
    · have hpos : 0 < text.length / width := Nat.div_pos (Nat.le_of_dvd (by omega)
        (Nat.dvd_of_mod_eq_zero hends)) hwidth
      rw [if_neg (by omega), hrows, Nat.max_eq_right hpos, cellRows_succ, fit_drop_of_le]
      rw [hlength, Nat.mul_comm]
      omega
  · have hrows : (text.length + width - 1) / width = text.length / width + 1 := by
      refine ((Nat.div_mod_unique hwidth).mpr
        ⟨show text.length % width - 1 + _ = _ from ?_, by omega⟩).1
      rw [Nat.mul_add]
      omega
    rw [if_pos (.inr hends), hrows, Nat.max_eq_right (Nat.le_add_left 1 _)]

namespace Tidy

variable {g : Grid} (h : Tidy g)
include h

/-- **A line adds its rows to the log**, and behind them the cursor is at the start of a blank
one. -/
theorem line_eq (text : List Char) :
    line g text = g.tail (logged g ++ textRows g.cols text ++ [g.blankLine]) 0 := by
  have hsound := (write_keeps h.sound text).sound
  unfold line
  dsimp only
  rw [List.append_assoc, Grid.blankLine, textRows_eq h.sound.cols_pos text]
  by_cases hunfinished : text.length = 0 ∨ text.length % g.cols ≠ 0
  · rw [if_pos hunfinished, if_pos hunfinished, newline_eq hsound, h.write_eq,
      Grid.nextRow_tail h.sound.rows_pos, List.append_assoc]
    · rfl
    · rw [cellRows_succ, ← List.append_assoc]
      exact List.concat_ne_nil _ _
  · have hfinished : text.length % g.cols = 0 := by omega
    rw [if_neg hunfinished, if_neg hunfinished, h.write_eq, hfinished]

/-- Progress is written like the beginning of a line, but for the cursor. -/
theorem progress_eq (text : List Char) : progress g text
    = g.tail (logged g ++ cellRows g.cols (text.length / g.cols + 1) (text.map (Cell.mk · {})))
        0 := by
  unfold progress
  dsimp only
  rw [h.write_eq]
  exact Grid.moveCursor_tail

theorem line (text : List Char) : Tidy (line g text) := by
  have hsound := (line_keeps h.sound text).sound
  rw [h.line_eq] at hsound ⊢
  exact tidy_tail hsound h.pen

theorem progress (text : List Char) : Tidy (progress g text) := by
  have hsound := (progress_keeps h.sound text).sound
  rw [h.progress_eq] at hsound ⊢
  exact tidy_tail hsound h.pen

/-! ## The row of the cursor -/

theorem emptied : Tidy (emptied g) := by
  have hsound : (DebugPane.emptied g).Sound := (h.sound.eraseLine .all).sound
  rw [h.emptied_eq] at hsound ⊢
  exact tidy_tail hsound h.pen

/-- Of the last line of a log nothing is left. -/
theorem emptied_tail {log : List (List Cell)} {line : List Cell} (hline : line.length = g.cols) :
    DebugPane.emptied (g.tail (log ++ [line]) 0) = g.tail (log ++ [g.blankLine]) 0 := by
  have hblank : blankBetween 0 g.cols line = g.blankLine := blankBetween_all hline
  rw [← hblank]
  exact Grid.modify_tail h.sound.rows_pos log line 0 _

theorem emptied_emptied : DebugPane.emptied (DebugPane.emptied g) = DebugPane.emptied g := by
  rw [h.emptied_eq]
  exact h.emptied_tail List.length_replicate

theorem write_emptied (text : List Char) : write (DebugPane.emptied g) text = write g text := by
  unfold write
  rw [h.emptied.erase_eq, h.erase_eq, h.emptied_emptied]

theorem line_emptied (text : List Char) :
    DebugPane.line (DebugPane.emptied g) text = DebugPane.line g text := by
  have hcols : (DebugPane.emptied g).cols = g.cols := rfl
  unfold DebugPane.line
  rw [h.write_emptied, hcols]

theorem progress_emptied (text : List Char) :
    DebugPane.progress (DebugPane.emptied g) text = DebugPane.progress g text := by
  unfold DebugPane.progress
  rw [h.write_emptied]

/-- **Progress that fits into the row leaves no trace** but in that row. -/
theorem emptied_progress {text : List Char} (hfits : text.length < g.cols) :
    DebugPane.emptied (DebugPane.progress g text) = DebugPane.emptied g := by
  have hone : cellRows g.cols (text.length / g.cols + 1) (text.map (Cell.mk · {}))
      = [fit g.cols .blank (text.map (Cell.mk · {}))] := by
    rw [Nat.div_eq_of_lt hfits, cellRows_succ, Nat.zero_mul]
    rfl
  rw [h.progress_eq, hone, h.emptied_tail (fit_length _ _ _), h.emptied_eq]

theorem clearGrid_emptied : clearGrid (DebugPane.emptied g) = clearGrid g := by
  have hrows : (DebugPane.emptied g).rows = g.rows := (h.sound.eraseLine .all).rows
  show (DebugPane.emptied g).reset = g.reset
  rw [Grid.reset_eq h.emptied.sound, Grid.reset_eq h.sound, hrows]
  rfl

/-- Another size of the screen cuts off lines and rows of the log. -/
theorem logged_resize (rows cols : Nat) : logged (g.resize rows cols)
    = ((logged g).map (fit (max cols 1) .blank)).take (max rows 1 - 1) := by
  have hrow : g.row < (g.lines.map (fit (max cols 1) .blank)).length := by
    rw [List.length_map]
    exact h.sound.row_lt
  show (fit (max rows 1) _ (g.lines.map (fit (max cols 1) .blank))).take
    (min g.row (max rows 1 - 1)) = _
  rw [fit, logged, List.map_take, List.take_take, List.take_append_of_le_length, List.take_take]
  · congr 1
    omega
  · rw [List.length_take]
    omega

theorem emptied_resize (rows cols : Nat) :
    DebugPane.emptied ((DebugPane.emptied g).resize rows cols)
      = DebugPane.emptied (g.resize rows cols) := by
  have hrows : ((DebugPane.emptied g).resize rows cols).rows = (g.resize rows cols).rows :=
    (Grid.rows_resize _ _ _).trans (Grid.rows_resize _ _ _).symm
  rw [(h.emptied.resize rows cols).emptied_eq, (h.resize rows cols).emptied_eq,
    h.emptied.logged_resize, h.logged_resize, logged_emptied]
  exact Grid.tail_congr hrows rfl rfl rfl

end Tidy

end DebugPane

open DebugPane (Tidy textRows)

namespace App

/-! ## The application -/

section

variable {a : App} (h : Tidy a.debug)
include h

theorem tidy_act (x : Act) : Tidy (a.act x).debug := by
  obtain ⟨-, -, hdebug⟩ := a.act_shown x
  rcases hdebug with hkept | ⟨text, hline⟩ | hclear
  · rw [hkept]
    exact h
  · rw [hline]
    exact h.line text
  · rw [hclear]
    exact DebugPane.tidy_clearGrid h.sound

theorem tidy_actAll (acts : List Act) : Tidy (a.actAll acts).debug := by
  induction acts generalizing a with
  | nil => exact h
  | cons x acts ih => exact ih (tidy_act h x)

/-- **The debug pane stays tidy.** -/
theorem tidy_handle (input : Input) : Tidy (a.handle input).debug := by
  cases input with
  | event event =>
    cases event with
    | console bytes =>
      show Tidy (a.consoleOutput bytes).debug
      rw [consoleOutput_acts]
      exact tidy_actAll (a := { a with console := (a.console.feedAll bytes).1 }) h _
    | line text => exact h.line _
    | progress text => exact h.progress _
    | quit reason => exact h
  | key k =>
    show Tidy (a.press k).debug
    rw [press_acts]
    exact tidy_actAll h _
  | resize cols rows => exact h.resize _ _

end

theorem OnScreen.tidy {cols rows : Nat} {a : App} (h : a.OnScreen cols rows) : Tidy a.debug := by
  induction h with
  | start cols rows => exact DebugPane.tidy_blank _ _
  | event _ event ih => exact tidy_handle ih _
  | key _ k ih => exact tidy_handle ih _
  | resize _ cols rows ih => exact tidy_handle ih _
  | draw _ ih => exact ih
  | served _ _ _ _ _ _ ih => exact ih

/-- The application without what stands in the row of the debug pane's cursor. -/
def emptied (a : App) : App := { a with debug := DebugPane.emptied a.debug }

section

variable {a : App} (h : Tidy a.debug)
include h

/-- A line takes the place of what stands there. -/
theorem say_emptied (text : List Char) : a.emptied.say text = a.say text :=
  congrArg (fun debug => { a with debug }) (h.line_emptied text)

theorem emptied_emptied : a.emptied.emptied = a.emptied :=
  congrArg (fun debug => { a with debug }) h.emptied_emptied

theorem askConsole_emptied (request : Console.Request) :
    (a.emptied.askConsole request).emptied = (a.askConsole request).emptied := by
  unfold askConsole
  rw [say_emptied h, apply_ite emptied, apply_ite emptied]
  exact congrArg (fun asked => if a.consoleOpen then asked else _)
    (emptied_emptied (a := { a with requests := a.requests.push request }) h)

theorem askDebugger_emptied (words : List String) :
    (a.emptied.askDebugger words).emptied = (a.askDebugger words).emptied := by
  unfold askDebugger
  rw [say_emptied h, apply_ite emptied, apply_ite emptied]
  exact congrArg (fun asked => if a.debugOpen then asked else _)
    (emptied_emptied (a := { a with commands := a.commands.push words }) h)

theorem act_emptied (x : Act) : (a.emptied.act x).emptied = (a.act x).emptied := by
  have hsame := emptied_emptied (tidy_act h x)
  cases x with
  | say text => exact congrArg emptied (say_emptied h text)
  | askConsole request => exact askConsole_emptied h request
  | askDebugger words => exact askDebugger_emptied h words
  | clearDebug => exact congrArg (fun debug => emptied { a with debug }) h.clearGrid_emptied
  | _ => exact hsame

theorem actAll_emptied (acts : List Act) :
    (a.emptied.actAll acts).emptied = (a.actAll acts).emptied := by
  induction acts generalizing a with
  | nil => exact emptied_emptied h
  | cons x acts ih =>
    calc (a.emptied.actAll (x :: acts)).emptied
        = ((a.emptied.act x).emptied.actAll acts).emptied := (ih (tidy_act h.emptied x)).symm
      _ = ((a.act x).emptied.actAll acts).emptied := by rw [act_emptied h]
      _ = (a.actAll (x :: acts)).emptied := ih (tidy_act h x)

/-- **What stands in the row of the cursor makes no difference** but in that row. -/
theorem handle_emptied (input : Input) :
    (a.emptied.handle input).emptied = (a.handle input).emptied := by
  cases input with
  | event event =>
    cases event with
    | console bytes =>
      show (a.emptied.consoleOutput bytes).emptied = (a.consoleOutput bytes).emptied
      rw [consoleOutput_acts, consoleOutput_acts]
      exact actAll_emptied (a := { a with console := (a.console.feedAll bytes).1 }) h _
    | line text => exact congrArg emptied (say_emptied h _)
    | progress text =>
      exact congrArg (fun debug => emptied { a with debug }) (h.progress_emptied _)
    | quit reason => exact emptied_emptied (a := { a with quit := some reason }) h
  | key k =>
    have hacts : a.emptied.acts k = a.acts k := rfl
    show (a.emptied.press k).emptied = (a.press k).emptied
    rw [press_acts, press_acts, hacts, actAll_emptied h]
  | resize cols rows =>
    exact congrArg (fun debug => { a.resize cols rows with debug }) (h.emptied_resize _ _)

theorem handleAll_emptied (inputs : List Input) :
    (a.emptied.handleAll inputs).emptied = (a.handleAll inputs).emptied := by
  induction inputs generalizing a with
  | nil => exact emptied_emptied h
  | cons input inputs ih =>
    calc (a.emptied.handleAll (input :: inputs)).emptied
        = ((a.emptied.handle input).emptied.handleAll inputs).emptied :=
          (ih (tidy_handle h.emptied input)).symm
      _ = ((a.handle input).emptied.handleAll inputs).emptied := by rw [handle_emptied h]
      _ = (a.handleAll (input :: inputs)).emptied := ih (tidy_handle h input)

end

theorem tidy_handleAll {a : App} (h : Tidy a.debug) (inputs : List Input) :
    Tidy (a.handleAll inputs).debug := by
  induction inputs generalizing a with
  | nil => exact h
  | cons input inputs ih => exact ih (tidy_handle h input)

/-- What differs in the row of the cursor alone does not differ any more after a line. -/
theorem say_of_emptied {a b : App} (ha : Tidy a.debug) (hb : Tidy b.debug)
    (hsame : a.emptied = b.emptied) (text : List Char) : a.say text = b.say text := by
  rw [← say_emptied ha, hsame, say_emptied hb]

/-- **The debug pane is a log** to which lines are added, after whatever has happened.

* The cursor is at the start of a row, and all rows below are blank.
* A line shows the end of a log: the rows above the cursor, then those that the text takes, then a
  blank row, which the cursor is in.
* Progress that does not fill a row has left no trace after the next line, whatever has happened in
  between. -/
theorem debug_log {cols rows : Nat} {a : App} (h : a.OnScreen cols rows) :
    let g := a.debug
    (g.row < g.rows ∧ g.col = 0 ∧
      ∀ i, g.row < i → i < g.rows → g.lines[i]? = some g.blankLine) ∧
    (∀ text : String,
      let log := g.lines.take g.row ++ textRows g.cols text.toList ++ [g.blankLine]
      a.handle (.event (.line text)) = { a with debug := g.tail log 0 }) ∧
    (∀ (shown text : String) (inputs : List Input), shown.toList.length < g.cols →
      ((a.handle (.event (.progress shown))).handleAll inputs).handle (.event (.line text))
        = (a.handleAll inputs).handle (.event (.line text))) := by
  intro g
  have htidy : Tidy g := h.tidy
  refine ⟨⟨htidy.sound.row_lt, htidy.col, htidy.below⟩, fun text => ?_, ?_⟩
  · exact congrArg (fun debug => { a with debug }) (htidy.line_eq text.toList)
  · intro shown text inputs hfits
    have hshown : (a.handle (.event (.progress shown))).emptied = a.emptied :=
      congrArg (fun debug => { a with debug }) (htidy.emptied_progress hfits)
    have hprogress := tidy_handle htidy (.event (.progress shown))
    refine say_of_emptied (tidy_handleAll hprogress inputs) (tidy_handleAll htidy inputs) ?_ _
    rw [← handleAll_emptied hprogress, hshown, handleAll_emptied htidy]

/-- A line of two rows is cut to three columns, and the next one takes three rows, so that of the
three rows of the pane two show its end.  The progress shown before is gone. -/
theorem debug_log_scrolled :
    let booted := (App.start 4 12).handle (.event (.line "booted"))
    let narrow := booted.handle (.resize 3 12)
    let a := narrow.handle (.event (.progress "50"))
    let next := a.handle (.event (.line "abcdefg"))
    a.debug.lines.map (·.map Cell.char) = ["boo", "ed ", "50 "].map String.toList ∧
      next.debug.lines.map (·.map Cell.char) = ["def", "g  ", "   "].map String.toList ∧
      next.debug.row = 2 ∧ next = narrow.handle (.event (.line "abcdefg")) := by
  intro booted narrow a next
  have hnarrow : OnScreen 3 12 narrow := ((OnScreen.start 4 12).event _).resize 3 12
  obtain ⟨-, hline, -⟩ := debug_log (hnarrow.event (.progress "50"))
  obtain ⟨-, -, htrace⟩ := debug_log hnarrow
  have hnext := congrArg App.debug (hline "abcdefg")
  refine ⟨by decide +kernel, ?_, ?_, htrace "50" "abcdefg" [] (by decide +kernel)⟩
  · rw [hnext]
    decide +kernel
  · rw [hnext]
    decide +kernel

end App

end BoardConsole.Interface
