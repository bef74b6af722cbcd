import BoardConsole.Terminal.Display

/-!
# Parameters that are left over

The parameters of a control sequence stay in the interpreter when its command has been carried out,
and so do the defaults that were put among them.  The next control sequence starts by throwing them
all away, and nothing looks at them before.

- `Interpreter.Agree`: two machines that differ in such parameters at most.
- `Interpreter.Agree.step`: **a byte cannot tell them apart**, and leaves them such.
- `Display.Agree.feedAll`: nor can any bytes, by induction on them.
- `Display.leftovers_unseen`: what parameters are left over is never seen.
-/

namespace BoardConsole.Terminal

/-! ## The machine -/

/-- The two machines are alike, but for parameters that are thrown away before they are looked at:
only in the middle of a control sequence do parameters count. -/
structure Interpreter.Agree (it it' : Interpreter) : Prop where
  mode : it.mode = it'.mode
  foreground : it.foreground = it'.foreground
  background : it.background = it'.background
  saved : it.saved = it'.saved
  params : it.mode = .params → it.params = it'.params

/-- The two lead to the same actions and the same answer, and to machines that are alike. -/
structure Step.Agree (s s' : Step) : Prop where
  next : s.next.Agree s'.next
  actions : s.actions = s'.actions
  reply : s.reply = s'.reply

namespace Interpreter.Agree

variable {it it' : Interpreter} (h : it.Agree it')
include h

/-- In the middle of a control sequence the two machines are one. -/
theorem eq_of_params (hmode : it.mode = .params) : it = it' := by
  obtain ⟨mode, params, foreground, background, saved⟩ := it
  obtain ⟨mode', params', foreground', background', saved'⟩ := it'
  obtain ⟨rfl, rfl, rfl, rfl, hparams⟩ := h
  obtain rfl := hparams hmode
  rfl

/-- Plain text and the byte that begins a sequence leave the parameters where they are. -/
theorem ground (v : Viewport) (b : UInt8) : (it.ground v b).Agree (it'.ground v b) := by
  have hescape : Agree { it with mode := .escape } { it' with mode := .escape } :=
    ⟨rfl, h.foreground, h.background, h.saved, fun hmode => Mode.noConfusion hmode⟩
  unfold Interpreter.ground
  split
  case h_8 => exact ⟨hescape, rfl, rfl⟩
  all_goals exact ⟨h, rfl, rfl⟩

/-- After ESC a control sequence begins, and it begins without parameters; or nothing begins, and
plain text goes on. -/
theorem escape (b : UInt8) : (it.escape b).Agree (it'.escape b) := by
  unfold Interpreter.escape
  split
  · exact ⟨⟨rfl, h.foreground, h.background, h.saved, fun _ => rfl⟩, rfl, rfl⟩
  · exact ⟨⟨rfl, rfl, rfl, h.saved, fun hmode => Mode.noConfusion hmode⟩, rfl, rfl⟩
  · exact ⟨⟨rfl, h.foreground, h.background, h.saved, fun hmode => Mode.noConfusion hmode⟩, rfl,
      rfl⟩

/-- **One byte cannot tell the two machines apart**, wherever they stand. -/
theorem step (v : Viewport) (b : UInt8) : (it.step v b).Agree (it'.step v b) := by
  cases hmode : it.mode with
  | ground =>
    have hmode' : it'.mode = .ground := h.mode.symm.trans hmode
    rw [Interpreter.step, Interpreter.step, hmode, hmode']
    exact h.ground v b
  | escape =>
    have hmode' : it'.mode = .escape := h.mode.symm.trans hmode
    rw [Interpreter.step, Interpreter.step, hmode, hmode']
    exact h.escape b
  | params =>
    obtain rfl := h.eq_of_params hmode
    exact ⟨⟨rfl, rfl, rfl, rfl, fun _ => rfl⟩, rfl, rfl⟩

/-- There is nothing to remark about parameters that are not looked at. -/
theorem remark (b : UInt8) (log : Log) : it.remark b log = it'.remark b log := by
  cases hmode : it.mode with
  | params =>
    obtain rfl := h.eq_of_params hmode
    rfl
  | _ =>
    rw [Interpreter.remark, Interpreter.remark, ← h.mode, hmode]

end Interpreter.Agree

/-! ## The terminal -/

namespace Display

/-- Two terminals that show the same, with machines that are alike. -/
structure Agree (d d' : Display) : Prop where
  interpreter : d.interpreter.Agree d'.interpreter
  grid : d.grid = d'.grid

namespace Agree

variable {d d' : Display}

theorem feed (h : d.Agree d') (b : UInt8) :
    (d.feed b).1.Agree (d'.feed b).1 ∧ (d.feed b).2 = (d'.feed b).2 := by
  obtain ⟨it, g⟩ := d
  obtain ⟨it', g'⟩ := d'
  obtain ⟨hmachine, hgrid⟩ := h
  obtain rfl : g = g' := hgrid
  obtain ⟨hnext, hactions, hreply⟩ := hmachine.step g.viewport b
  exact ⟨⟨hnext, congrArg g.applyAll hactions⟩, hreply⟩

theorem feedAll (h : d.Agree d') (bs : Bytes) :
    (d.feedAll bs).1.Agree (d'.feedAll bs).1 ∧ (d.feedAll bs).2 = (d'.feedAll bs).2 := by
  induction bs generalizing d d' with
  | nil => exact ⟨h, rfl⟩
  | cons b bs ih =>
    obtain ⟨hfed, hreply⟩ := h.feed b
    obtain ⟨hall, hreplies⟩ := ih hfed
    rw [feedAll_cons, feedAll_cons]
    refine ⟨hall, ?_⟩
    dsimp only
    rw [hreply, hreplies]

/-- What is remarked about bytes is the same, too. -/
theorem remark (h : d.Agree d') (bs : Bytes) (log : Log) : d.remark bs log = d'.remark bs log := by
  induction bs generalizing d d' log with
  | nil => rfl
  | cons b bs ih =>
    show (d.feed b).1.remark bs (d.interpreter.remark b log)
      = (d'.feed b).1.remark bs (d'.interpreter.remark b log)
    rw [h.interpreter.remark b log]
    exact ih (h.feed b).1 _

end Agree

/-- **What parameters are left over is never seen.**  Two machines stand in the same place, in plain
text or after ESC, have the same colours and the same saved cursor, and any parameters: finished
places, digits of a number that never ended, and a count of numbers that did not fit.  On the same
grid and for the same bytes both draw the same and answer the same after every single byte, they
stand in the same place and have the same colours and the same saved cursor; and what is remarked
about the bytes is the same. -/
theorem leftovers_unseen (it it' : Interpreter)
    (hplace : it.mode = .ground ∨ it.mode = .escape)
    (hmode : it.mode = it'.mode) (hforeground : it.foreground = it'.foreground)
    (hbackground : it.background = it'.background) (hsaved : it.saved = it'.saved) (g : Grid)
    (stream : Bytes) :
    (∀ bs, bs <+: stream →
      let out := (⟨it, g⟩ : Display).feedAll bs
      let out' := (⟨it', g⟩ : Display).feedAll bs
      out.1.grid = out'.1.grid ∧ out.2 = out'.2 ∧
        out.1.interpreter.mode = out'.1.interpreter.mode ∧
        out.1.interpreter.foreground = out'.1.interpreter.foreground ∧
        out.1.interpreter.background = out'.1.interpreter.background ∧
        out.1.interpreter.saved = out'.1.interpreter.saved) ∧
      ∀ log, (⟨it, g⟩ : Display).remark stream log = (⟨it', g⟩ : Display).remark stream log := by
  have hparams : it.mode = .params → it.params = it'.params := by
    intro hparams
    rw [hparams] at hplace
    rcases hplace with hground | hescape
    · cases hground
    · cases hescape
  have h : Agree ⟨it, g⟩ ⟨it', g⟩ :=
    ⟨⟨hmode, hforeground, hbackground, hsaved, hparams⟩, rfl⟩
  refine ⟨fun bs _ => ?_, h.remark stream⟩
  obtain ⟨⟨hmachine, hgrid⟩, hreplies⟩ := h.feedAll bs
  exact ⟨hgrid, hreplies, hmachine.mode, hmachine.foreground, hmachine.background, hmachine.saved⟩

/-- After ESC, with sixteen places full, a number without an end and a count of numbers that did not
fit, `[;5H` sends the cursor to the first row and the fifth column as it does without them. -/
theorem leftovers_unseen_full :
    let full : Params := { slots := List.replicate 16 (some 7), pending := some 3, dropped := 2 }
    let it : Interpreter := { mode := .escape, params := full }
    let stream : Bytes := [0x5B, 0x3B, 0x35, 0x48]
    let g := ((⟨it, .blank 8 9⟩ : Display).feedAll stream).1.grid
    g = ((⟨{ mode := .escape }, .blank 8 9⟩ : Display).feedAll stream).1.grid ∧
      g.row = 0 ∧ g.col = 4 := by
  intro full it stream g
  obtain ⟨hdraws, -⟩ := leftovers_unseen it { mode := .escape } (.inr rfl) rfl rfl rfl rfl
    (.blank 8 9) stream
  obtain ⟨hgrid, -⟩ := hdraws stream (List.prefix_refl stream)
  exact ⟨hgrid, by decide +kernel, by decide +kernel⟩

end Display

end BoardConsole.Terminal
