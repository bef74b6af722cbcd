import BoardConsole.Proofs.Bounds
import BoardConsole.Proofs.Quitting
import BoardConsole.Proofs.Tokens

/-!
# What a full reset leaves behind

A full reset takes the colours and the attributes back, erases the screen and sends the cursor home.
Of all that a terminal has been sent before, one thing can still be seen afterwards: the cursor that
was saved, and it can be seen only by restoring it.

- `Picture.Alike`: two terminals show the same and draw alike.
- `Grid.reset_eq`: a grid after a full reset is a blank one, but for rings of the bell.
- `recallsFirst`: the saved cursor is restored before another one is saved.
- `Picture.performAll_withSaved`: nothing else looks at the saved cursor.
- `Display.feedAll_reset`: **what a full reset leaves behind**.
-/

namespace BoardConsole.Terminal

/-- The two show the same and draw alike. -/
structure Picture.Alike (p p' : Picture) : Prop where
  cells : p.grid.lines = p'.grid.lines
  row : p.grid.row = p'.grid.row
  col : p.grid.col = p'.grid.col
  pen : p.grid.pen = p'.grid.pen
  foreground : p.foreground = p'.foreground
  background : p.background = p'.background

namespace Picture.Alike

variable {p p' p'' : Picture}

theorem symm (h : p.Alike p') : p'.Alike p :=
  ⟨h.cells.symm, h.row.symm, h.col.symm, h.pen.symm, h.foreground.symm, h.background.symm⟩

theorem trans (h : p.Alike p') (h' : p'.Alike p'') : p.Alike p'' :=
  ⟨h.cells.trans h'.cells, h.row.trans h'.row, h.col.trans h'.col, h.pen.trans h'.pen,
    h.foreground.trans h'.foreground, h.background.trans h'.background⟩

end Picture.Alike

/-! ## The grid after a full reset -/

theorem blankBetween_all {n : Nat} {line : List Cell} (h : line.length = n) :
    blankBetween 0 n line = List.replicate n .blank := by
  refine List.eq_replicate_iff.mpr ⟨(blankBetween_length ..).trans h, fun cell hcell => ?_⟩
  obtain ⟨i, hi, rfl⟩ := List.mem_mapIdx.mp hcell
  exact if_pos ⟨Nat.zero_le i, h ▸ hi⟩

theorem Attributes.without_all (a : Attributes) : a.without .all = .none := by
  have hnone : ~~~(127#7) = 0#7 := by decide
  show (⟨a.bits &&& ~~~(127#7)⟩ : Attributes) = ⟨0#7⟩
  rw [hnone, BitVec.and_zero]

namespace Grid

/-- A grid with everything on it taken back. -/
def reset (g : Grid) : Grid :=
  (((g.disable .all).setColors .standard .standard).eraseDisplay .all).moveCursor 0 0

/-- **Everything on a grid is taken back**, but for rings of the bell. -/
theorem reset_eq {g : Grid} (h : g.Sound) :
    g.reset
      = { lines := List.replicate g.rows g.blankLine, cols := g.cols, bells := g.bells } := by
  have hlines : g.lines.mapIdx (fun i line => if 0 ≤ i then blankBetween 0 g.cols line else line)
      = List.replicate g.rows g.blankLine := by
    refine List.eq_replicate_iff.mpr ⟨List.length_mapIdx, fun line hline => ?_⟩
    obtain ⟨i, hi, rfl⟩ := List.mem_mapIdx.mp hline
    rw [if_pos (Nat.zero_le i), blankBetween_all (h.wide _ (List.getElem_mem hi)), blankLine]
  have hpen : ({ attributes := g.pen.attributes.without .all } : Pen) = {} := by
    rw [Attributes.without_all]
  show ({ lines := g.lines.mapIdx fun i line => if 0 ≤ i then blankBetween 0 g.cols line else line
          cols := g.cols
          row := min 0 _
          col := min 0 _
          pen := { attributes := g.pen.attributes.without .all }
          bells := g.bells } : Grid) = _
  rw [hlines, hpen, Nat.zero_min, Nat.zero_min]

theorem silent_reset {g : Grid} {rows cols : Nat} (h : (blank rows cols).Keeps g) :
    g.reset.silent = blank rows cols := by
  have hrows : g.rows = max rows 1 := h.rows.trans List.length_replicate
  have hcols : g.cols = max cols 1 := h.cols
  rw [reset_eq h.sound, blankLine, hrows, hcols]
  rfl

end Grid

/-! ## The saved cursor -/

namespace Interpreter

/-- The machine with another saved cursor. -/
def withSaved (it : Interpreter) (saved : Nat × Nat) : Interpreter := { it with saved }

theorem render_withSaved (it : Interpreter) (s : Nat × Nat) (change : Rendition) :
    (it.withSaved s).render change = ((it.render change).1.withSaved s, (it.render change).2) := by
  cases change with
  | _ => rfl

theorem renderAll_withSaved (it : Interpreter) (s : Nat × Nat) (values : List Nat) :
    (it.withSaved s).renderAll values
      = ((it.renderAll values).1.withSaved s, (it.renderAll values).2) := by
  induction values generalizing it with
  | nil => rfl
  | cons value values ih =>
    rw [renderAll, renderAll]
    cases Rendition.decode? value with
    | none => exact ih it
    | some change =>
      dsimp only
      rw [render_withSaved, ih]

/-- **The saved cursor is looked at by the command that restores it**, and by no other. -/
theorem execute_withSaved (it : Interpreter) (s : Nat × Nat) (v : Viewport) {c : Char}
    (hc : c ≠ 'u') :
    (it.withSaved s).execute v c
      = { it.execute v c with
          next := (it.execute v c).next.withSaved (if c = 's' then (v.row, v.col) else s) } := by
  by_cases hs : c = 's'
  · subst hs
    rfl
  · have hparams : (it.withSaved s).params = it.params := rfl
    rw [if_neg hs]
    unfold execute
    dsimp only
    rw [hparams]
    split
    -- the commands that erase and the one that reports have one effect for each parameter
    case h_10 => split <;> rfl
    case h_11 => split <;> rfl
    case h_19 => split <;> rfl
    case h_18 => rw [renderAll_withSaved]
    case h_22 => exact absurd rfl hs
    case h_23 => exact absurd rfl hc
    all_goals rfl

/-- A command saves where the cursor is, or saves nothing. -/
theorem execute_saved (it : Interpreter) (v : Viewport) (c : Char) :
    (it.execute v c).next.saved = it.saved ∨ (it.execute v c).next.saved = (v.row, v.col) := by
  by_cases hc : c = 'u'
  · subst hc
    exact .inl rfl
  · have h := it.execute_withSaved it.saved v hc
    have hsame : it.withSaved it.saved = it := rfl
    have hsaved : (it.execute v c).next.saved = if c = 's' then (v.row, v.col) else it.saved := by
      rw [hsame] at h
      rw [h]
      rfl
    rw [hsaved]
    by_cases hs : c = 's'
    · exact .inr (if_pos hs)
    · exact .inl (if_neg hs)

end Interpreter

namespace Token

/-- The token restores the saved cursor. -/
def recalls : Token → Bool
  | .sequence _ final => Bytes.toChar final = 'u'
  | _ => false

/-- The token saves the cursor. -/
def saves : Token → Bool
  | .sequence _ final => Bytes.toChar final = 's'
  | _ => false

end Token

/-- The saved cursor is restored before another one is saved. -/
def recallsFirst : List Token → Bool
  | [] => false
  | t :: ts => t.recalls || (!t.saves && recallsFirst ts)

namespace Picture

/-- The terminal with another saved cursor. -/
def withSaved (p : Picture) (saved : Nat × Nat) : Picture := { p with saved }

theorem perform_withSaved (p : Picture) (s : Nat × Nat) {t : Token} (ht : t.recalls = false) :
    (p.withSaved s).perform t
      = ((p.perform t).1.withSaved (if t.saves then (p.perform t).1.saved else s),
        (p.perform t).2) := by
  cases t with
  | sequence params final =>
    have hc : Bytes.toChar final ≠ 'u' := of_decide_eq_false ht
    show (p.withSaved s).command (Token.params params) (Bytes.toChar final)
      = ((p.command (Token.params params) (Bytes.toChar final)).1.withSaved
          (if decide (Bytes.toChar final = 's') then
            (p.command (Token.params params) (Bytes.toChar final)).1.saved else s),
        (p.command (Token.params params) (Bytes.toChar final)).2)
    generalize Bytes.toChar final = c at hc ⊢
    have h := Interpreter.execute_withSaved
      { params := (Token.params params).fillDefaults (Interpreter.defaults c)
        foreground := p.foreground
        background := p.background
        saved := p.saved } s p.grid.viewport hc
    simp only [Interpreter.withSaved] at h
    by_cases hs : c = 's'
    · subst hs
      rfl
    · rw [decide_eq_false hs, if_neg Bool.false_ne_true]
      rw [if_neg hs] at h
      simp only [command, withSaved, h]
  | _ => rfl

/-- **A saved cursor that is not restored before another is saved** makes no difference but in the
saved cursor. -/
theorem performAll_withSaved (p : Picture) (s : Nat × Nat) {ts : List Token}
    (h : recallsFirst ts = false) :
    ∃ s', (p.withSaved s).performAll ts
      = ((p.performAll ts).1.withSaved s', (p.performAll ts).2) := by
  induction ts generalizing p s with
  | nil => exact ⟨s, rfl⟩
  | cons t ts ih =>
    obtain ⟨ht, hrest⟩ := Bool.or_eq_false_iff.mp h
    rw [performAll, performAll, perform_withSaved p s ht]
    by_cases hsaves : t.saves = true
    · -- another cursor is saved, and what was saved before is gone
      rw [if_pos hsaves]
      exact ⟨_, rfl⟩
    · rw [if_neg hsaves]
      have hlater : recallsFirst ts = false := by
        simpa [hsaves] using hrest
      obtain ⟨s', hs'⟩ := ih (p.perform t).1 s hlater
      dsimp only
      rw [hs']
      exact ⟨s', rfl⟩

/-! ### It is a place on the screen -/

/-- The saved cursor is on a cell of the screen. -/
def SavedInside (p : Picture) : Prop := p.saved.1 < p.grid.rows ∧ p.saved.2 < p.grid.cols

end Picture

theorem Grid.Sound.control {g : Grid} (h : g.Sound) (b : UInt8) : g.Keeps (g.control b) := by
  unfold Grid.control
  split
  case h_1 => exact h.withPen _ _
  case h_4 =>
    split
    · exact h.moveCursor _ _
    · exact h.scrollUp 1
  case h_6 => exact (h.eraseDisplay .all).trans ((h.eraseDisplay .all).sound.moveCursor 0 0)
  case h_8 => exact ⟨h, rfl, rfl⟩
  all_goals exact h.moveCursor _ _

theorem Grid.Sound.reset {g : Grid} (h : g.Sound) : g.Keeps g.reset :=
  h.applyAll [.disable .all, .setColors .standard .standard, .eraseDisplay .all, .move 0 0]

namespace Picture

theorem perform_keeps {p : Picture} (hgrid : p.grid.Sound) (hsaved : p.SavedInside) (t : Token) :
    p.grid.Keeps (p.perform t).1.grid ∧ (p.perform t).1.SavedInside := by
  -- what was saved stays inside, because the screen stays as large as it is
  have hkept : ∀ g s, p.grid.Keeps g → s = p.saved ∨ s = (p.grid.row, p.grid.col) →
      s.1 < g.rows ∧ s.2 < g.cols := by
    rintro g s hg (rfl | rfl)
    · rw [hg.rows, hg.cols]
      exact hsaved
    · rw [hg.rows, hg.cols]
      exact ⟨hgrid.row_lt, hgrid.col_lt⟩
  cases t with
  | sequence params final =>
    have hg := hgrid.applyAll (Interpreter.execute
      { params := (Token.params params).fillDefaults (Interpreter.defaults (Bytes.toChar final))
        foreground := p.foreground
        background := p.background
        saved := p.saved } p.grid.viewport (Bytes.toChar final)).actions
    exact ⟨hg, hkept _ _ hg (Interpreter.execute_saved _ _ _)⟩
  | reset => exact ⟨hgrid.reset, hkept _ _ hgrid.reset (.inl rfl)⟩
  | literal b =>
    have hg := (hgrid.writeChar '\x1b').trans
      ((hgrid.writeChar '\x1b').sound.writeChar (Bytes.toChar b))
    exact ⟨hg, hkept _ _ hg (.inl rfl)⟩
  | control b => exact ⟨hgrid.control b, hkept _ _ (hgrid.control b) (.inl rfl)⟩
  | text b =>
    have hg := hgrid.writeChar (Bytes.toChar b)
    exact ⟨hg, hkept _ _ hg (.inl rfl)⟩

theorem performAll_keeps {p : Picture} (hgrid : p.grid.Sound) (hsaved : p.SavedInside)
    (ts : List Token) :
    p.grid.Keeps (p.performAll ts).1.grid ∧ (p.performAll ts).1.SavedInside := by
  induction ts generalizing p with
  | nil => exact ⟨⟨hgrid, rfl, rfl⟩, hsaved⟩
  | cons t ts ih =>
    obtain ⟨hkeeps, hinside⟩ := perform_keeps hgrid hsaved t
    obtain ⟨hkeeps', hinside'⟩ := ih hkeeps.sound hinside
    exact ⟨hkeeps.trans hkeeps', hinside'⟩

end Picture

/-! ## Full resets -/

namespace Display

/-- Between two tokens, what a terminal shows from then on and answers depends on its picture
alone. -/
theorem feedAll_congr_picture {d d' : Display} (hmode : d.interpreter.mode = .ground)
    (hmode' : d'.interpreter.mode = .ground) (h : d.picture = d'.picture) (q : Bytes) :
    (d.feedAll q).1.picture = (d'.feedAll q).1.picture ∧ (d.feedAll q).2 = (d'.feedAll q).2 := by
  obtain ⟨-, -, hd⟩ := feedAll_tokens d hmode q
  obtain ⟨-, -, hd'⟩ := feedAll_tokens d' hmode' q
  rw [h, ← hd'] at hd
  exact Prod.mk.inj hd

/-- Rings of the bell are not shown. -/
theorem alike_silent (d : Display) : d.silent.picture.Alike d.picture :=
  ⟨rfl, rfl, rfl, rfl, rfl, rfl⟩

theorem alike_of_silent {d d' : Display} (h : d.silent = d'.silent) :
    d.picture.Alike d'.picture := by
  have hd := d.alike_silent
  rw [h] at hd
  exact hd.symm.trans d'.alike_silent

/-- On certain bytes the two come to show the same and draw alike, and give the same answers. -/
def AlikeOn (d d' : Display) (q : Bytes) : Prop :=
  (d.feedAll q).1.picture.Alike (d'.feedAll q).1.picture ∧ (d.feedAll q).2 = (d'.feedAll q).2

theorem AlikeOn.symm {d d' : Display} {q : Bytes} (h : d.AlikeOn d' q) : d'.AlikeOn d q :=
  ⟨h.1.symm, h.2.symm⟩

theorem AlikeOn.trans {d d' d'' : Display} {q : Bytes} (h : d.AlikeOn d' q)
    (h' : d'.AlikeOn d'' q) : d.AlikeOn d'' q :=
  ⟨h.1.trans h'.1, h.2.trans h'.2⟩

/-- A fresh terminal of a size with a saved cursor. -/
def blankSaved (rows cols : Nat) (saved : Nat × Nat) : Display :=
  { interpreter := { saved }, grid := .blank rows cols }

variable {d : Display} {rows cols : Nat}

/-- After a full reset a terminal is a fresh one, but for the saved cursor and rings of the bell. -/
theorem picture_reset (hground : d.interpreter.mode = .ground)
    (hkeeps : (Grid.blank rows cols).Keeps d.grid) :
    (d.feedAll [0x1B, 0x63]).1.silent.interpreter.mode = .ground ∧
      (d.feedAll [0x1B, 0x63]).1.silent.picture
        = (blankSaved rows cols d.interpreter.saved).picture := by
  obtain ⟨hmode, heffect⟩ := feedAll_spelling hground (t := .reset) trivial
  have hreset : (d.feedAll [0x1B, 0x63]).1.picture = (d.picture.perform .reset).1 :=
    congrArg Prod.fst heffect
  refine ⟨hmode, ?_⟩
  show { (d.feedAll [0x1B, 0x63]).1.picture with
    grid := (d.feedAll [0x1B, 0x63]).1.picture.grid.silent } = _
  rw [hreset]
  show (⟨d.grid.reset.silent, .standard, .standard, d.interpreter.saved⟩ : Picture) = _
  rw [Grid.silent_reset hkeeps]
  rfl

theorem alikeOn_reset (hground : d.interpreter.mode = .ground)
    (hkeeps : (Grid.blank rows cols).Keeps d.grid) (q : Bytes) :
    (d.feedAll [0x1B, 0x63]).1.AlikeOn (blankSaved rows cols d.interpreter.saved) q := by
  obtain ⟨hmode, hpicture⟩ := picture_reset hground hkeeps
  obtain ⟨hsilent, hreplies⟩ := (d.feedAll [0x1B, 0x63]).1.feedAll_silent q
  obtain ⟨hshown, hanswered⟩ := feedAll_congr_picture hmode rfl hpicture q
  refine ⟨?_, hreplies.symm.trans hanswered⟩
  rw [← hshown]
  exact alike_of_silent hsilent.symm

/-- A saved cursor is not noticed before it is restored. -/
theorem alikeOn_blankSaved (saved : Nat × Nat) {q : Bytes} (hq : recallsFirst (tokens q) = false) :
    (blankSaved rows cols saved).AlikeOn (blank rows cols) q := by
  obtain ⟨-, -, hsaved⟩ := feedAll_tokens (blankSaved rows cols saved) rfl q
  obtain ⟨-, -, hfresh⟩ := feedAll_tokens (blank rows cols) rfl q
  obtain ⟨s, hs⟩ := (blank rows cols).picture.performAll_withSaved saved hq
  have hboth : (blankSaved rows cols saved).picture.performAll (tokens q)
      = (((blank rows cols).feedAll q).1.picture.withSaved s, ((blank rows cols).feedAll q).2) := by
    obtain ⟨hpicture, hreplies⟩ := Prod.mk.inj hfresh
    rw [hpicture, hreplies]
    exact hs
  rw [hboth] at hsaved
  obtain ⟨hpicture, hreplies⟩ := Prod.mk.inj hsaved
  refine ⟨?_, hreplies⟩
  rw [hpicture]
  exact ⟨rfl, rfl, rfl, rfl, rfl, rfl⟩

/-- Restored, a saved cursor is noticed, unless it is the top left. -/
theorem saved_of_alikeOn {saved : Nat × Nat} (hrow : saved.1 < (Grid.blank rows cols).rows)
    (hcol : saved.2 < (Grid.blank rows cols).cols)
    (h : (blankSaved rows cols saved).AlikeOn (blank rows cols) [0x1B, 0x5B, 0x75]) :
    saved = (0, 0) := by
  have hrestored : ∀ saved,
      ((blankSaved rows cols saved).feedAll [0x1B, 0x5B, 0x75]).1.picture.grid
        = (Grid.blank rows cols).moveCursor (min saved.1 ((Grid.blank rows cols).rows - 1))
          (min saved.2 ((Grid.blank rows cols).cols - 1)) := fun _ => rfl
  have hfresh : blank rows cols = blankSaved rows cols (0, 0) := rfl
  obtain ⟨halike, -⟩ := h
  have hsameRow := halike.row
  have hsameCol := halike.col
  rw [hfresh, hrestored, hrestored] at hsameRow hsameCol
  simp only [Grid.moveCursor] at hsameRow hsameCol
  refine Prod.ext ?_ ?_
  · show saved.1 = 0
    omega
  · show saved.2 = 0
    omega

/-- **What a full reset leaves behind** is the saved cursor.  After whatever has been sent to a
terminal up to the end of a token, and a full reset, it shows the same and gives the same answers as
a fresh one with that saved cursor, whatever is sent to it next.

* That is what a fresh terminal shows and answers, unless the saved cursor is restored before
  another one is saved.
* Whatever is sent, it is that exactly if the saved cursor was the top left. -/
theorem feedAll_reset (rows cols : Nat) (p : Bytes)
    (hground : ((blank rows cols).feedAll p).1.interpreter.mode = .ground) :
    let left := ((blank rows cols).feedAll p).1
    let after := (left.feedAll [0x1B, 0x63]).1
    (∀ q, after.AlikeOn (blankSaved rows cols left.interpreter.saved) q) ∧
    (∀ q, recallsFirst (tokens q) = false → after.AlikeOn (blank rows cols) q) ∧
    ((∀ q, after.AlikeOn (blank rows cols) q) ↔ left.interpreter.saved = (0, 0)) := by
  intro left after
  -- the screen is still as large as it was, and the saved cursor is on it
  obtain ⟨-, -, hleft⟩ := feedAll_tokens (blank rows cols) rfl p
  have hsound := Grid.sound_blank rows cols
  obtain ⟨hkeeps, hinside⟩ := Picture.performAll_keeps (p := (blank rows cols).picture) hsound
    ⟨hsound.rows_pos, hsound.cols_pos⟩ (tokens p)
  rw [← (Prod.mk.inj hleft).1] at hkeeps hinside
  have hkept := alikeOn_reset (d := left) hground hkeeps
  refine ⟨hkept, fun q hq => ?_, fun h => ?_, fun h q => ?_⟩
  · exact (hkept q).trans (alikeOn_blankSaved _ hq)
  · have hrow : left.interpreter.saved.1 < (Grid.blank rows cols).rows :=
      Nat.lt_of_lt_of_eq hinside.1 hkeeps.rows
    have hcol : left.interpreter.saved.2 < (Grid.blank rows cols).cols :=
      Nat.lt_of_lt_of_eq hinside.2 hkeeps.cols
    exact saved_of_alikeOn hrow hcol ((hkept _).symm.trans (h _))
  · have hfresh := hkept q
    rw [h] at hfresh
    exact hfresh

/-- After bold yellow text, a saved cursor and a full reset, what saves the cursor before it
restores one finds a fresh terminal. -/
theorem feedAll_reset_text :
    let p : Bytes := [0x1B, 0x5B, 0x31, 0x3B, 0x33, 0x33, 0x6D, 0x74, 0x65, 0x1B, 0x5B, 0x73]
    let q : Bytes := [0x61, 0x1B, 0x5B, 0x73, 0x62, 0x1B, 0x5B, 0x75, 0x1B, 0x5B, 0x36, 0x6E]
    let left := ((blank 3 10).feedAll p).1
    left.interpreter.mode = .ground ∧
      (left.feedAll [0x1B, 0x63]).1.AlikeOn (blank 3 10) q ∧
      ¬ ∀ q, (left.feedAll [0x1B, 0x63]).1.AlikeOn (blank 3 10) q := by
  intro p q left
  have hground : left.interpreter.mode = .ground := by decide +kernel
  obtain ⟨-, hfresh, hiff⟩ := feedAll_reset 3 10 p hground
  have htokens : tokens q = [.text 0x61, .sequence [] 0x73, .text 0x62, .sequence [] 0x75,
      .sequence [0x36] 0x6E] := tokens_eq_iff.mpr ⟨by decide +kernel, [], .inl rfl, rfl⟩
  have hsaved : left.interpreter.saved ≠ (0, 0) := by decide +kernel
  refine ⟨hground, hfresh q ?_, fun h => hsaved (hiff.mp h)⟩
  rw [htokens]
  decide

/-- A cursor saved before a full reset can be restored after it. -/
theorem not_alikeOn_restored :
    ¬ ∀ (rows cols : Nat) (p q : Bytes),
      ((blank rows cols).feedAll p).1.interpreter.mode = .ground →
      (((blank rows cols).feedAll p).1.feedAll [0x1B, 0x63]).1.AlikeOn (blank rows cols) q := by
  intro h
  obtain ⟨halike, -⟩ := h 2 3 [0x78, 0x1B, 0x5B, 0x73] [0x1B, 0x5B, 0x75] (by decide +kernel)
  have hcol := halike.col
  exact absurd hcol (by decide +kernel)

end Display

end BoardConsole.Terminal
