import BoardConsole.Proofs.Bounds

/-!
# A terminal that checks

Lists are indexed, sliced, inserted into and removed from here only where they have a member, and
differences are taken only where they are not below zero; anything else gives no result.  Every
operation of the grid and of the interpreter is written once more in these terms, a step at a time.
On sound grids it has a result, and that is the result of the operation itself.

- `Checked.apply`, `Checked.step`: the operations that check.
- `Checked.apply_eq`, `Checked.step_eq`: they have a result.
- `Display.run_checked`: **no check fails** and no grid loses its shape, whatever a terminal is sent
  and however it is resized.
-/

namespace BoardConsole.Terminal

namespace Checked

/-! ## Lists and differences -/

section Lists

variable {α : Type}

/-- A difference that is not below zero. -/
def sub (a b : Nat) : Option Nat := if b ≤ a then some (a - b) else none

/-- The member at an index changed. -/
def update (xs : List α) (i : Nat) (f : α → Option α) : Option (List α) := do
  let x ← xs[i]?
  let y ← f x
  some (xs.set i y)

/-- The members from one index up to another replaced. -/
def fill (first last : Nat) (filler : α) (xs : List α) : Option (List α) :=
  if first ≤ last ∧ last ≤ xs.length then
    some (xs.take first ++ List.replicate (last - first) filler ++ xs.drop last)
  else none

/-- The members from an index on changed. -/
def changeFrom (first : Nat) (f : α → α) (xs : List α) : Option (List α) :=
  if first ≤ xs.length then some (xs.take first ++ (xs.drop first).map f) else none

/-- The members from one index up to another taken out. -/
def drain (first last : Nat) (xs : List α) : Option (List α) :=
  if first ≤ last ∧ last ≤ xs.length then some (xs.take first ++ xs.drop last) else none

/-- The member at an index taken out. -/
def remove (i : Nat) (xs : List α) : Option (List α) :=
  if i < xs.length then some (xs.eraseIdx i) else none

/-- Another member at an index. -/
def put (i : Nat) (x : α) (xs : List α) : Option (List α) :=
  if i < xs.length then some (xs.set i x) else none

/-- A member put in at an index. -/
def insert (i : Nat) (x : α) (xs : List α) : Option (List α) :=
  if i ≤ xs.length then some (xs.insertIdx i x) else none

/-- Members put where there is room for some number of them. -/
def collect (room : Nat) (xs : List α) : Option (List α) :=
  if xs.length ≤ room then some xs else none

/-- A member put in at an index time and again. -/
def insertMany (n i : Nat) (x : α) (xs : List α) : Option (List α) :=
  match n with
  | 0 => some xs
  | n + 1 => do
    let ys ← insert i x xs
    insertMany n i x ys

theorem sub_of_le {a b : Nat} (h : b ≤ a) : sub a b = some (a - b) := if_pos h

theorem update_eq {xs : List α} {i : Nat} {f : α → Option α} {g : α → α} (hi : i < xs.length)
    (hf : ∀ x ∈ xs, f x = some (g x)) : update xs i f = some (xs.modify i g) := by
  rw [update, List.getElem?_eq_getElem hi]
  show (do let y ← f xs[i]; some (xs.set i y)) = _
  rw [hf _ (List.getElem_mem hi), List.modify_eq_take_cons_drop hi]
  show some (xs.set i (g xs[i])) = _
  rw [List.set_eq_take_append_cons_drop, if_pos hi]

theorem changeFrom_eq {first : Nat} {f g : α → α} {xs : List α} (hfirst : first ≤ xs.length)
    (hf : ∀ x ∈ xs, f x = g x) :
    changeFrom first f xs = some (xs.mapIdx fun i x => if first ≤ i then g x else x) := by
  rw [changeFrom, if_pos hfirst]
  refine congrArg some (List.ext_getElem? fun i => ?_)
  rw [List.getElem?_mapIdx]
  by_cases hi : first ≤ i
  · have hg : xs[i]?.map f = xs[i]?.map g :=
      Option.map_congr fun x hx => hf x (List.mem_of_getElem? hx)
    rw [List.getElem?_append_right (by rw [List.length_take]; omega), List.getElem?_map,
      List.getElem?_drop, List.length_take, Nat.min_eq_left hfirst, Nat.add_sub_cancel' hi, hg]
    simp only [hi, if_true]
  · rw [List.getElem?_append_left (by rw [List.length_take]; omega),
      List.getElem?_take_of_lt (by omega)]
    simp only [hi, if_false, Option.map_id']

theorem insertIdx_eq (x : α) {xs : List α} {i : Nat} (h : i ≤ xs.length) :
    xs.insertIdx i x = xs.take i ++ x :: xs.drop i := by
  induction xs generalizing i with
  | nil =>
    have hi : i = 0 := Nat.le_zero.mp h
    subst hi
    rfl
  | cons y ys ih =>
    cases i with
    | zero => rfl
    | succ i =>
      rw [List.insertIdx_succ_cons, ih (Nat.le_of_succ_le_succ h)]
      rfl

theorem insertMany_eq (n : Nat) {i : Nat} (x : α) {xs : List α} (h : i ≤ xs.length) :
    insertMany n i x xs = some (xs.take i ++ List.replicate n x ++ xs.drop i) := by
  induction n generalizing xs with
  | zero => simp [insertMany]
  | succ n ih =>
    rw [insertMany, insert, if_pos h, insertIdx_eq x h]
    -- the next one goes in front of those already put in
    have hlen : (xs.take i).length = i := List.length_take_of_le h
    show insertMany n i x _ = _
    rw [ih (by rw [List.length_append]; omega), List.take_left' hlen, List.drop_left' hlen,
      List.replicate_succ']
    simp

end Lists

theorem fill_eq {first last : Nat} {line : List Cell} (hfirst : first ≤ last)
    (hlast : last ≤ line.length) :
    fill first last .blank line = some (blankBetween first last line) := by
  rw [fill, if_pos ⟨hfirst, hlast⟩]
  refine congrArg some (List.ext_getElem? fun i => ?_)
  -- cell by cell: before the part, in it, and after it
  have htake : (line.take first).length = first := List.length_take_of_le (by omega)
  have hmid : (line.take first ++ List.replicate (last - first) Cell.blank).length = last := by
    rw [List.length_append, htake, List.length_replicate]
    omega
  rw [blankBetween, List.getElem?_mapIdx]
  by_cases hleft : i < first
  · rw [List.getElem?_append_left (by omega), List.getElem?_append_left (by omega),
      List.getElem?_take_of_lt hleft]
    simp [show ¬ first ≤ i by omega]
  · by_cases hright : i < last
    · rw [List.getElem?_append_left (by omega), List.getElem?_append_right (by omega),
        List.getElem?_replicate, if_pos (by omega),
        List.getElem?_eq_getElem (show i < line.length by omega)]
      simp [show first ≤ i by omega, hright]
    · rw [List.getElem?_append_right (by omega), List.getElem?_drop, hmid,
        show last + (i - last) = i by omega]
      simp [hright]

theorem replicate_blank (line : List Cell) :
    List.replicate line.length .blank = blankBetween 0 line.length line := by
  have h := fill_eq (Nat.zero_le _) (Nat.le_refl line.length)
  rw [fill, if_pos ⟨Nat.zero_le _, Nat.le_refl _⟩] at h
  simpa using h

/-! ## The grid -/

/-- A grid of another size with the same top left contents. -/
def resize (g : Grid) (rows cols : Nat) : Option Grid := do
  let lastRow ← sub (max rows 1) 1
  let lastCol ← sub (max cols 1) 1
  some { g with
    lines := fit (max rows 1) (List.replicate (max cols 1) .blank)
      (g.lines.map (fit (max cols 1) .blank))
    cols := max cols 1
    row := min g.row lastRow
    col := min g.col lastCol }

/-- The cursor at a row and a column, or at the edge. -/
def moveCursor (g : Grid) (row col : Nat) : Option Grid := do
  let lastRow ← sub g.rows 1
  let lastCol ← sub g.cols 1
  some { g with row := min row lastRow, col := min col lastCol }

/-- The contents moved up, or down by a negative count. -/
def scroll (g : Grid) (lines : Int) : Option Grid :=
  let n := min lines.natAbs g.rows
  if n = 0 then some g
  else if 0 < lines then do
    let kept ← drain 0 n g.lines
    some { g with lines := kept ++ List.replicate n g.blankLine }
  else do
    let count ← sub g.rows n
    let lines ← insertMany n 0 g.blankLine (g.lines.take count)
    some { g with lines }

/-- A character drawn at the cursor, which advances. -/
def writeChar (g : Grid) (char : Char) : Option Grid := do
  let lines ← update g.lines g.row (put g.col ⟨char, g.pen⟩)
  let g := { g with lines }
  if g.col + 1 < g.cols then some { g with col := g.col + 1 }
  else if g.row + 1 < g.rows then some { g with row := g.row + 1, col := 0 }
  else scroll { g with col := 0 } 1

/-- A part of the cursor's line made blank. -/
def eraseLine (g : Grid) (part : LineErase) : Option Grid := do
  let lines ← update g.lines g.row fun line =>
    match part with
    | .toEnd => fill g.col line.length .blank line
    | .toCursor => fill 0 g.col .blank line
    | .all => fill 0 line.length .blank line
  some { g with lines }

/-- A part of the screen made blank. -/
def eraseDisplay (g : Grid) (part : DisplayErase) : Option Grid := do
  let (g, first) ← match part with
    | .toEnd => do
      let g ← eraseLine g .toEnd
      some (g, g.row + 1)
    | .all => some (g, 0)
  let lines ← changeFrom first (fun line => List.replicate line.length .blank) g.lines
  some { g with lines }

/-- Blank lines put in at the cursor's row one by one; the last lines are lost. -/
def insertLines (g : Grid) (count : Nat) : Option Grid := do
  let below ← sub g.rows g.row
  let n := min count below
  let kept ← sub g.rows n
  let lines ← insertMany n g.row g.blankLine (g.lines.take kept)
  some { g with lines }

/-- Lines taken out at the cursor's row; blank lines come in at the bottom. -/
def deleteLines (g : Grid) (count : Nat) : Option Grid := do
  let below ← sub g.rows g.row
  let n := min count below
  let kept ← drain g.row (g.row + n) g.lines
  some { g with lines := kept ++ List.replicate n g.blankLine }

/-- A blank put in at the cursor; the last cell of the line is lost. -/
def insertChar (g : Grid) : Option Grid := do
  let lines ← update g.lines g.row fun line => insert g.col .blank line.dropLast
  some { g with lines }

/-- The cell at the cursor taken out; a blank comes in at the end of the line. -/
def deleteChar (g : Grid) : Option Grid := do
  let lines ← update g.lines g.row fun line => do
    let rest ← remove g.col line
    some (rest ++ [.blank])
  some { g with lines }

/-- What an action does. -/
def apply (g : Grid) : Action → Option Grid
  | .move row col => moveCursor g row col
  | .write char => writeChar g char
  | .eraseLine part => eraseLine g part
  | .eraseDisplay part => eraseDisplay g part
  | .scroll lines => scroll g lines
  | .insertLines count => insertLines g count
  | .deleteLines count => deleteLines g count
  | .insertChar => insertChar g
  | .deleteChar => deleteChar g
  | .enable attributes => some (g.enable attributes)
  | .disable attributes => some (g.disable attributes)
  | .setColors foreground background => some (g.setColors foreground background)
  | .bell => some { g with bells := g.bells + 1 }

/-- What a list of actions does, first to last. -/
def applyAll (g : Grid) (actions : List Action) : Option Grid := actions.foldlM apply g

theorem resize_eq (g : Grid) (rows cols : Nat) :
    resize g rows cols = some (g.resize rows cols) := by
  rw [resize, sub_of_le (by omega), sub_of_le (by omega)]
  rfl

section Sound

variable {g : Grid} (h : g.Sound)
include h

theorem moveCursor_eq (row col : Nat) : moveCursor g row col = some (g.moveCursor row col) := by
  rw [moveCursor, sub_of_le h.rows_pos, sub_of_le h.cols_pos]
  rfl

/-- The cursor's line changed. -/
theorem update_row (t : List Cell → List Cell) {f : List Cell → Option (List Cell)}
    (hf : ∀ line, line.length = g.cols → f line = some (t line)) :
    update g.lines g.row f = some (g.lines.modify g.row t) :=
  update_eq h.row_lt fun line hl => hf line (h.wide line hl)

theorem scroll_eq (lines : Int) : scroll g lines = some (g.scroll lines) := by
  have hrows := h.rows_pos
  -- a count is cut to the number of rows here and only by the lines themselves there
  have hdrop : ∀ n, g.lines.drop (min n g.rows) = g.lines.drop n := fun n => by
    by_cases hn : n ≤ g.rows
    · rw [Nat.min_eq_left hn]
    · have hlength : g.lines.length ≤ n := Nat.le_of_not_le hn
      rw [Nat.min_eq_right (Nat.le_of_not_le hn), List.drop_eq_nil_of_le hlength]
      exact List.drop_length
  rw [scroll, Grid.scroll]
  by_cases hzero : min lines.natAbs g.rows = 0
  · obtain rfl : lines = 0 := by omega
    simp [Grid.scrollUp]
  rw [if_neg hzero]
  by_cases hup : 0 < lines
  · rw [if_pos hup, if_pos (by omega), drain, if_pos ⟨Nat.zero_le _, Nat.min_le_right ..⟩]
    have hcount : lines.natAbs = lines.toNat := by omega
    rw [List.take_zero, List.nil_append, hdrop, hcount]
    rfl
  · have hcount : lines.natAbs = (-lines).toNat := by omega
    have hkept : g.rows - min (-lines).toNat g.rows = g.rows - (-lines).toNat := by omega
    rw [if_neg hup, if_neg (by omega), sub_of_le (Nat.min_le_right ..), hcount, hkept]
    show (do
      let lines ← insertMany (min (-lines).toNat g.rows) 0 g.blankLine
        (g.lines.take (g.rows - (-lines).toNat))
      some { g with lines }) = _
    rw [insertMany_eq _ _ (Nat.zero_le _), List.take_zero, List.nil_append, List.drop_zero]
    rfl

theorem writeChar_eq (char : Char) : writeChar g char = some (g.writeChar char) := by
  have hset := update_row h (·.set g.col ⟨char, g.pen⟩) (f := put g.col ⟨char, g.pen⟩)
    fun line hline => if_pos (hline ▸ h.col_lt)
  have hkeeps := h.modify (f := (·.set g.col ⟨char, g.pen⟩)) fun line hline =>
    List.length_set.trans hline
  rw [writeChar, hset, Grid.writeChar]
  dsimp only [Option.bind_eq_bind, Option.bind_some]
  split
  · rfl
  · split
    · rfl
    · exact scroll_eq (hkeeps.sound.withCursor hkeeps.sound.row_lt hkeeps.sound.cols_pos).sound 1

theorem eraseLine_eq (part : LineErase) : eraseLine g part = some (g.eraseLine part) := by
  have hcol := h.col_lt
  rw [eraseLine]
  cases part with
  | toEnd =>
    rw [update_row h (blankBetween g.col g.cols) fun line hline => by
      rw [fill_eq (by omega) (Nat.le_refl _), hline]]
    rfl
  | toCursor =>
    rw [update_row h _ fun line hline => fill_eq (Nat.zero_le _) (by omega)]
    rfl
  | all =>
    rw [update_row h (blankBetween 0 g.cols) fun line hline => by
      rw [fill_eq (Nat.zero_le _) (Nat.le_refl _), hline]]
    rfl

/-- The lines from one on made blank. -/
theorem changeFrom_row {first : Nat} (hfirst : first ≤ g.rows) :
    changeFrom first (fun line => List.replicate line.length .blank) g.lines
      = some (g.lines.mapIdx fun i line =>
        if first ≤ i then blankBetween 0 g.cols line else line) :=
  changeFrom_eq hfirst fun line hl => by rw [replicate_blank, h.wide line hl]

theorem eraseDisplay_eq (part : DisplayErase) :
    eraseDisplay g part = some (g.eraseDisplay part) := by
  cases part with
  | toEnd =>
    have herased := h.eraseLine .toEnd
    rw [eraseDisplay, eraseLine_eq h]
    dsimp only [Option.bind_eq_bind, Option.bind_some]
    rw [changeFrom_row herased.sound herased.sound.row_lt]
    rfl
  | all =>
    rw [eraseDisplay]
    dsimp only [Option.bind_eq_bind, Option.bind_some]
    rw [changeFrom_row h (Nat.zero_le _)]
    rfl

theorem insertLines_eq (count : Nat) : insertLines g count = some (g.insertLines count) := by
  have hrow := h.row_lt
  rw [insertLines, sub_of_le (Nat.le_of_lt hrow)]
  dsimp only [Option.bind_eq_bind, Option.bind_some]
  have hkept : (g.lines.take (g.rows - min count (g.rows - g.row))).length
      = g.rows - min count (g.rows - g.row) :=
    List.length_take_of_le (Nat.sub_le ..)
  rw [sub_of_le (by omega), Option.bind_some, insertMany_eq _ _ (by omega), List.take_take,
    Nat.min_eq_left (by omega), List.drop_take,
    show g.rows - min count (g.rows - g.row) - g.row
      = g.rows - g.row - min count (g.rows - g.row) by omega]
  rfl

theorem deleteLines_eq (count : Nat) : deleteLines g count = some (g.deleteLines count) := by
  have hrow := h.row_lt
  have hlength : g.lines.length = g.rows := rfl
  rw [deleteLines, sub_of_le (Nat.le_of_lt hrow)]
  dsimp only [Option.bind_eq_bind, Option.bind_some]
  rw [drain, if_pos ⟨by omega, by omega⟩]
  rfl

theorem insertChar_eq : insertChar g = some g.insertChar := by
  have hcol := h.col_lt
  rw [insertChar, update_row h (fun line => line.dropLast.insertIdx g.col .blank)
    fun line hline => by rw [insert, if_pos (by rw [List.length_dropLast]; omega)]]
  rfl

theorem deleteChar_eq : deleteChar g = some g.deleteChar := by
  have hcol := h.col_lt
  rw [deleteChar, update_row h (fun line => line.eraseIdx g.col ++ [.blank])
    fun line hline => by rw [remove, if_pos (by omega)]; rfl]
  rfl

/-- **Every action has a result on a sound grid**, the one it has without checks. -/
theorem apply_eq (a : Action) : apply g a = some (g.apply a) := by
  cases a with
  | move row col => exact moveCursor_eq h row col
  | write char => exact writeChar_eq h char
  | eraseLine part => exact eraseLine_eq h part
  | eraseDisplay part => exact eraseDisplay_eq h part
  | scroll lines => exact scroll_eq h lines
  | insertLines count => exact insertLines_eq h count
  | deleteLines count => exact deleteLines_eq h count
  | insertChar => exact insertChar_eq h
  | deleteChar => exact deleteChar_eq h
  | _ => rfl

theorem applyAll_eq (actions : List Action) : applyAll g actions = some (g.applyAll actions) := by
  induction actions generalizing g with
  | nil => rfl
  | cons a actions ih =>
    rw [applyAll, List.foldlM_cons, apply_eq h]
    exact ih (h.apply a).sound

end Sound

/-! ## The interpreter -/

/-- The change that a number stands for, if it stands for one. -/
def decode (value : Nat) : Option (Option Rendition) :=
  if 30 ≤ value ∧ value ≤ 37 then do
    let index ← sub value 30
    some (some (.foreground (.ofIndex index)))
  else if 40 ≤ value ∧ value ≤ 47 then do
    let index ← sub value 40
    some (some (.background (.ofIndex index)))
  else some (Rendition.decode? value)

/-- Changes of the rendition by number, first to last. -/
def renderAll (it : Interpreter) : List Nat → Option (Interpreter × List Action)
  | [] => some (it, [])
  | value :: values => do
    match ← decode value with
    | none => renderAll it values
    | some change =>
      let (it, actions) := it.render change
      let (it, more) ← renderAll it values
      some (it, actions ++ more)

/-- The final byte of a control sequence.  The rendition goes through a list with limited room, and
it and the saved cursor take differences. -/
def finish (it : Interpreter) (v : Viewport) (b : UInt8) : Option Step := do
  let command := Bytes.toChar b
  let closed := { it with
    mode := .ground
    params := (Interpreter.closeParams it.params).fillDefaults (Interpreter.defaults command) }
  if command = 'm' then do
    let values ← collect Params.capacity closed.params.given
    let (it, actions) ← renderAll closed values
    some ⟨it, actions, []⟩
  else if command = 'u' then do
    let lastRow ← sub v.rows 1
    let lastCol ← sub v.cols 1
    some ⟨closed, [.move (min it.saved.1 lastRow) (min it.saved.2 lastCol)], []⟩
  else some (closed.execute v command)

/-- What a byte leads to.  The tab and the digits take differences. -/
def step (it : Interpreter) (v : Viewport) (b : UInt8) : Option Step :=
  match it.mode with
  | .ground =>
    if b = 0x09 then do
      let lastCol ← sub v.cols 1
      some ⟨it, [.move v.row (min ((v.col + 8) / 8 * 8) lastCol)], []⟩
    else some (it.ground v b)
  | .escape => some (it.escape b)
  | .params =>
    if 0x30 ≤ b ∧ b ≤ 0x39 then do
      let digit ← sub b.toNat 0x30
      some ⟨{ it with params := it.params.pushDigit digit }, [], []⟩
    else if b = 0x3B then some ⟨{ it with params := it.params.terminate }, [], []⟩
    else finish it v b

theorem decode_eq (value : Nat) : decode value = some (Rendition.decode? value) := by
  unfold decode
  split
  · rename_i h
    obtain ⟨k, hk, rfl⟩ : ∃ k, k < 8 ∧ value = k + 30 := ⟨value - 30, by omega, by omega⟩
    revert k
    decide
  · split
    · rename_i h
      obtain ⟨k, hk, rfl⟩ : ∃ k, k < 8 ∧ value = k + 40 := ⟨value - 40, by omega, by omega⟩
      revert k
      decide
    · rfl

theorem renderAll_eq (it : Interpreter) (values : List Nat) :
    renderAll it values = some (it.renderAll values) := by
  induction values generalizing it with
  | nil => rfl
  | cons value values ih =>
    rw [renderAll, Interpreter.renderAll, decode_eq]
    dsimp only [Option.bind_eq_bind, Option.bind_some]
    cases Rendition.decode? value with
    | none => exact ih it
    | some change =>
      dsimp only
      rw [ih]
      rfl

/-- There is room for all parameters that are kept. -/
theorem collect_given (p : Params) (defaults : List Nat) :
    collect Params.capacity (p.fillDefaults defaults).given
      = some (p.fillDefaults defaults).given := by
  have hslots : (p.fillDefaults defaults).slots.length ≤ Params.capacity := by
    rw [Params.fillDefaults, List.length_take]
    exact Nat.min_le_left ..
  have hgiven : (p.fillDefaults defaults).given.length ≤ (p.fillDefaults defaults).slots.length :=
    List.length_filterMap_le ..
  exact if_pos (Nat.le_trans hgiven hslots)

section Sound

variable {v : Viewport} (hv : v.Sound)
include hv

theorem finish_eq (it : Interpreter) (b : UInt8) : finish it v b = some (it.finish v b) := by
  unfold finish Interpreter.finish
  dsimp only
  split
  · rename_i hm
    rw [hm, collect_given]
    dsimp only [Option.bind_eq_bind, Option.bind_some]
    rw [renderAll_eq]
    rfl
  · split
    · rename_i hu
      rw [hu, sub_of_le (Nat.zero_lt_of_lt hv.row_lt), sub_of_le (Nat.zero_lt_of_lt hv.col_lt)]
      rfl
    · rfl

/-- **Every byte has a result in every state of the interpreter**, the one it has without
checks. -/
theorem step_eq (it : Interpreter) (b : UInt8) : step it v b = some (it.step v b) := by
  rw [step, Interpreter.step]
  cases it.mode with
  | ground =>
    dsimp only
    split
    · rename_i htab
      rw [htab, sub_of_le (Nat.zero_lt_of_lt hv.col_lt)]
      rfl
    · rfl
  | escape => rfl
  | params =>
    dsimp only
    split
    · rename_i hdigit
      have hlow : 0x30 ≤ b.toNat := UInt8.le_iff_toNat_le.mp hdigit.1
      rw [sub_of_le hlow]
      rfl
    · split
      · rfl
      · exact finish_eq hv it b

end Sound

/-- A byte from the target, and what the terminal answers. -/
def feed (d : Display) (b : UInt8) : Option (Display × Bytes) := do
  let step ← step d.interpreter d.grid.viewport b
  let grid ← applyAll d.grid step.actions
  some (⟨step.next, grid⟩, step.reply)

theorem feed_eq {d : Display} (h : d.grid.Sound) (b : UInt8) : feed d b = some (d.feed b) := by
  rw [feed, step_eq h.viewport]
  dsimp only [Option.bind_eq_bind, Option.bind_some]
  rw [applyAll_eq h]
  rfl

end Checked

/-! ## Runs -/

namespace Display

/-- What happens to a terminal. -/
inductive Event
  /-- A byte comes from the target. -/
  | byte (b : UInt8)
  /-- The terminal gets another size. -/
  | resize (rows cols : Nat)
  deriving DecidableEq, Repr

/-- The terminal after an event, and what it answers. -/
def after (d : Display) : Event → Display × Bytes
  | .byte b => d.feed b
  | .resize rows cols => ({ d with grid := d.grid.resize rows cols }, [])

/-- The terminal after events, first to last. -/
def run (d : Display) (events : List Event) : Display :=
  events.foldl (fun d e => (d.after e).1) d

end Display

namespace Checked

/-- The terminal after an event, and what it answers. -/
def after (d : Display) : Display.Event → Option (Display × Bytes)
  | .byte b => feed d b
  | .resize rows cols => do
    let grid ← resize d.grid rows cols
    some ({ d with grid }, [])

/-- The terminal after events, first to last. -/
def run (d : Display) (events : List Display.Event) : Option Display :=
  events.foldlM (fun d e => (after d e).map Prod.fst) d

theorem after_eq {d : Display} (h : d.grid.Sound) (e : Display.Event) :
    after d e = some (d.after e) := by
  cases e with
  | byte b => exact feed_eq h b
  | resize rows cols =>
    rw [after, resize_eq]
    rfl

end Checked

namespace Display

/-- What one event keeps. -/
theorem after_sound {d : Display} (h : d.grid.Sound) (e : Event) : (d.after e).1.grid.Sound := by
  cases e with
  | byte b => exact (h.applyAll _).sound
  | resize rows cols => exact .resize d.grid rows cols

/-- What a run keeps, and that no check fails in it. -/
theorem run_sound {d : Display} (h : d.grid.Sound) (events : List Event) :
    (d.run events).grid.Sound ∧ Checked.run d events = some (d.run events) := by
  induction events generalizing d with
  | nil => exact ⟨h, rfl⟩
  | cons e events ih =>
    rw [Checked.run, List.foldlM_cons, Checked.after_eq h]
    exact ih (after_sound h e)

/-- **A terminal keeps its shape.**  Whatever its size at first, whatever bytes it is sent and
however it is resized in between: its grid has a row and a column, lines of one length and the
cursor on a cell; nothing has been looked up, cut, put in or taken out where there is nothing, and
no difference has gone below zero; and wherever the next byte sends the cursor there is a cell, so
that the grid moves it to that very place. -/
theorem run_checked (rows cols : Nat) (events : List Event) :
    let d := (blank rows cols).run events
    d.grid.Sound ∧ Checked.run (blank rows cols) events = some d ∧
      ∀ (b : UInt8) (before after : List Action) (row col : Nat),
        (d.interpreter.step d.grid.viewport b).actions = before ++ .move row col :: after →
          let g := d.grid.applyAll before
          row < g.rows ∧ col < g.cols ∧ g.moveCursor row col = { g with row, col } := by
  intro d
  obtain ⟨hsound, hchecked⟩ := run_sound (d := blank rows cols) (Grid.sound_blank rows cols) events
  refine ⟨hsound, hchecked, fun b before after row col hactions => ?_⟩
  have hinside := Interpreter.step_inside d.interpreter hsound.viewport b (.move row col)
    (by rw [hactions]; simp)
  have hkeeps := hsound.applyAll before
  have hrow : row < (d.grid.applyAll before).rows := by
    rw [hkeeps.rows]
    exact hinside.1
  have hcol : col < (d.grid.applyAll before).cols := by
    rw [hkeeps.cols]
    exact hinside.2
  exact ⟨hrow, hcol, Grid.moveCursor_inside hrow hcol⟩

/-- A cursor saved in a corner is restored after the screen has shrunk to one cell. -/
theorem run_checked_restored :
    let events : List Event :=
      [0x1B, 0x5B, 0x33, 0x3B, 0x35, 0x48, 0x1B, 0x5B, 0x73].map .byte
        ++ .resize 0 0 :: [0x1B, 0x5B].map .byte
    let d := (blank 3 5).run events
    d.interpreter.saved = (2, 4) ∧ d.grid.lines = [[.blank]] ∧
      (d.interpreter.step d.grid.viewport 0x75).actions = [.move 0 0] ∧
      d.grid.moveCursor 0 0 = { d.grid with row := 0, col := 0 } ∧
      Checked.run (blank 3 5) events = some d := by
  intro events d
  have hactions : (d.interpreter.step d.grid.viewport 0x75).actions = [.move 0 0] := by
    decide +kernel
  obtain ⟨-, hchecked, hmoves⟩ := run_checked 3 5 events
  exact ⟨by decide +kernel, by decide +kernel, hactions, (hmoves 0x75 [] [] 0 0 hactions).2.2,
    hchecked⟩

end Display

end BoardConsole.Terminal
