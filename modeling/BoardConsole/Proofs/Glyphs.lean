import BoardConsole.Interface.Desk
import BoardConsole.Proofs.Acts
import Mathlib.Data.List.InsertIdx
import Mathlib.Data.List.Infix

/-!
# What the target can put on the host's screen

Everything on the screen that comes from outside comes through a cell, and every cell is shown by
its glyph.  For a pen of the usual character set the glyph is no control character.  The alternate
set shows what it does not know as it is, control characters too, and the target can choose it by
one of the renditions 11 to 19: from then on it can write control sequences for the host.

- `Grid.Shows.apply`: a property of blank cells and of those that are written is one of all cells.
- `Grid.Usual`: nothing is in the alternate set, and nothing will be drawn in it.
- `Display.Shifts`: the one kind of byte that chooses the alternate set.
- `App.glyph_isControl_iff`: **which cells of which states are shown by a control character**.
-/

namespace BoardConsole

open Terminal

/-- A control character: of the first 32, DEL, or of the 32 after it. -/
def isControl (c : Char) : Bool := c.toNat < 0x20 || (0x7F ≤ c.toNat && c.toNat ≤ 0x9F)

namespace Terminal

/-! ## Properties of all cells -/

/-- Every cell has the property. -/
def Shows (P : Cell → Prop) (lines : List (List Cell)) : Prop :=
  ∀ line ∈ lines, ∀ cell ∈ line, P cell

theorem fit_mem {α : Type} {n : Nat} {filler x : α} {xs : List α} (h : x ∈ fit n filler xs) :
    x ∈ xs ∨ x = filler := by
  rw [fit, List.mem_append] at h
  rcases h with h | h
  · exact .inl (List.mem_of_mem_take h)
  · exact .inr (List.eq_of_mem_replicate h)

namespace Shows

variable {P : Cell → Prop} {lines more : List (List Cell)}

theorem append (h : Shows P lines) (h' : Shows P more) : Shows P (lines ++ more) := by
  intro line hl
  rcases List.mem_append.mp hl with hl | hl
  · exact h line hl
  · exact h' line hl

theorem take (h : Shows P lines) (n : Nat) : Shows P (lines.take n) :=
  fun line hl => h line (List.mem_of_mem_take hl)

theorem drop (h : Shows P lines) (n : Nat) : Shows P (lines.drop n) :=
  fun line hl => h line (List.mem_of_mem_drop hl)

theorem modify (h : Shows P lines) (i : Nat) {f : List Cell → List Cell}
    (hf : ∀ line, (∀ cell ∈ line, P cell) → ∀ cell ∈ f line, P cell) :
    Shows P (lines.modify i f) :=
  forall_mem_modify h i hf

variable (hblank : P .blank)
include hblank

theorem replicate_blank (n m : Nat) : Shows P (List.replicate n (List.replicate m .blank)) := by
  intro line hl cell hc
  rw [List.eq_of_mem_replicate hl] at hc
  rw [List.eq_of_mem_replicate hc]
  exact hblank

theorem blankBetween (first last : Nat) {line : List Cell} (h : ∀ cell ∈ line, P cell) :
    ∀ cell ∈ blankBetween first last line, P cell := by
  intro cell hc
  obtain ⟨j, hj, rfl⟩ := List.mem_mapIdx.mp hc
  split
  · exact hblank
  · exact h _ (List.getElem_mem hj)

theorem eraseLine {g : Grid} (h : Shows P g.lines) (part : LineErase) :
    Shows P (g.eraseLine part).lines := by
  cases part <;> exact h.modify g.row fun line hline => blankBetween hblank _ _ hline

theorem scrollUp {g : Grid} (h : Shows P g.lines) (n : Nat) : Shows P (g.scrollUp n).lines :=
  (h.drop n).append (replicate_blank hblank _ _)

/-- **Whatever is done to a grid**, its cells were there before, are blank or have just been
written. -/
theorem apply {g : Grid} (h : Shows P g.lines) (a : Action)
    (hwrite : ∀ c, a = .write c → P ⟨c, g.pen⟩) : Shows P (g.apply a).lines := by
  cases a with
  | move row col => exact h
  | write c =>
    have hset : Shows P (g.lines.modify g.row (·.set g.col ⟨c, g.pen⟩)) := by
      refine h.modify g.row fun line hline cell hc => ?_
      rcases List.mem_or_eq_of_mem_set hc with hc | rfl
      · exact hline cell hc
      · exact hwrite c rfl
    show Shows P (g.writeChar c).lines
    unfold Grid.writeChar
    dsimp only
    split
    · exact hset
    · split
      · exact hset
      · exact scrollUp hblank (g := { g with lines := g.lines.modify g.row _ }) hset 1
  | eraseLine part => exact eraseLine hblank h part
  | eraseDisplay part =>
    have hrest : ∀ (first : Nat) {g' : Grid}, Shows P g'.lines → Shows P
        (g'.lines.mapIdx fun i line =>
          if first ≤ i then Terminal.blankBetween 0 g'.cols line else line) := by
      intro first g' h' line hl
      obtain ⟨j, hj, rfl⟩ := List.mem_mapIdx.mp hl
      have hline := h' _ (List.getElem_mem hj)
      split
      · exact blankBetween hblank _ _ hline
      · exact hline
    cases part with
    | toEnd => exact hrest _ (eraseLine hblank h .toEnd)
    | all => exact hrest _ h
  | scroll lines =>
    show Shows P (g.scroll lines).lines
    unfold Grid.scroll
    split
    · exact scrollUp hblank h _
    · exact (replicate_blank hblank _ _).append (h.take _)
  | insertLines count =>
    exact ((h.take _).append (replicate_blank hblank _ _)).append ((h.drop _).take _)
  | deleteLines count =>
    exact ((h.take _).append (h.drop _)).append (replicate_blank hblank _ _)
  | insertChar =>
    refine h.modify g.row fun line hline cell hc => ?_
    rcases List.eq_or_mem_of_mem_insertIdx hc with rfl | hc
    · exact hblank
    · exact hline cell (List.mem_of_mem_dropLast hc)
  | deleteChar =>
    refine h.modify g.row fun line hline cell hc => ?_
    rcases List.mem_append.mp hc with hc | hc
    · exact hline cell (List.mem_of_mem_eraseIdx hc)
    · rw [List.mem_singleton.mp hc]
      exact hblank
  | enable attributes => exact h
  | disable attributes => exact h
  | setColors foreground background => exact h
  | bell => exact h

theorem resize {g : Grid} (h : Shows P g.lines) (rows cols : Nat) :
    Shows P (g.resize rows cols).lines := by
  intro line hl cell hc
  rcases fit_mem hl with hl | rfl
  · obtain ⟨old, hold, rfl⟩ := List.mem_map.mp hl
    rcases fit_mem hc with hc | rfl
    · exact h old hold cell hc
    · exact hblank
  · rw [List.eq_of_mem_replicate hc]
    exact hblank

end Shows

/-! ## The usual character set -/

namespace Attributes

theorem contains_altCharset (a : Attributes) : a.contains .altCharset = a.bits.getLsbD 6 := by
  obtain ⟨bits⟩ := a
  revert bits
  decide

theorem altCharset_union (a b : Attributes) :
    (a.union b).contains .altCharset = (a.contains .altCharset || b.contains .altCharset) := by
  simp only [contains_altCharset, union, BitVec.getLsbD_or]

theorem altCharset_without {a : Attributes} (h : a.contains .altCharset = false)
    (b : Attributes) : (a.without b).contains .altCharset = false := by
  rw [contains_altCharset] at *
  simp only [without, BitVec.getLsbD_and, h, Bool.false_and]

end Attributes

/-- The pen draws in the alternate character set. -/
def Pen.isAlternate (pen : Pen) : Bool := pen.attributes.contains .altCharset

/-- Nothing is in the alternate character set, and nothing will be drawn in it. -/
structure Grid.Usual (g : Grid) : Prop where
  pen : g.pen.isAlternate = false
  cells : Shows (fun cell => cell.pen.isAlternate = false) g.lines

/-- The action chooses the alternate character set. -/
def Action.shifts : Action → Bool
  | .enable attributes => attributes.contains .altCharset
  | _ => false

/-- None of the actions chooses the alternate character set. -/
def Unshifted (actions : List Action) : Prop := ∀ a ∈ actions, a.shifts = false

namespace Unshifted

theorem nil : Unshifted [] := fun _ h => absurd h List.not_mem_nil

theorem cons {a : Action} {actions : List Action} (h : a.shifts = false)
    (hrest : Unshifted actions) : Unshifted (a :: actions) :=
  List.forall_mem_cons.mpr ⟨h, hrest⟩

theorem one {a : Action} (h : a.shifts = false) : Unshifted [a] := cons h nil

theorem append {actions more : List Action} (h : Unshifted actions) (hmore : Unshifted more) :
    Unshifted (actions ++ more) :=
  List.forall_mem_append.mpr ⟨h, hmore⟩

theorem replicate {a : Action} (n : Nat) (h : a.shifts = false) :
    Unshifted (List.replicate n a) := by
  intro x hx
  rw [List.eq_of_mem_replicate hx]
  exact h

end Unshifted

namespace Grid

variable {g : Grid}

theorem usual_blank (rows cols : Nat) : (blank rows cols).Usual where
  pen := (by decide : Cell.blank.pen.isAlternate = false)
  cells := Shows.replicate_blank (by decide) _ _

theorem Usual.resize (h : g.Usual) (rows cols : Nat) : (g.resize rows cols).Usual :=
  ⟨h.pen, Shows.resize (by decide) h.cells rows cols⟩

theorem Usual.apply (h : g.Usual) {a : Action} (ha : a.shifts = false) : (g.apply a).Usual := by
  refine ⟨?_, Shows.apply (by decide) h.cells a fun c _ => h.pen⟩
  cases a with
  | write c =>
    show (g.writeChar c).pen.isAlternate = false
    unfold writeChar
    dsimp only
    split
    · exact h.pen
    · split
      · exact h.pen
      · exact h.pen
  | eraseDisplay part => cases part <;> exact h.pen
  | scroll lines =>
    show (g.scroll lines).pen.isAlternate = false
    unfold scroll
    split <;> exact h.pen
  | enable attributes =>
    show (g.pen.attributes.union attributes).contains .altCharset = false
    rw [Attributes.altCharset_union, Bool.or_eq_false_iff]
    exact ⟨h.pen, ha⟩
  | disable attributes => exact Attributes.altCharset_without h.pen attributes
  | _ => exact h.pen

theorem Usual.applyAll (h : g.Usual) {actions : List Action} (hactions : Unshifted actions) :
    (g.applyAll actions).Usual := by
  induction actions generalizing g with
  | nil => exact h
  | cons a actions ih =>
    obtain ⟨ha, hrest⟩ := List.forall_mem_cons.mp hactions
    exact ih (h.apply ha) hrest

end Grid

/-! ## The bytes that choose the alternate set -/

/-- The number is that of a rendition in the alternate character set. -/
def choosesAlternate (n : Nat) : Bool := 11 ≤ n && n ≤ 19

/-- The change chooses the alternate character set. -/
def Rendition.shifts : Rendition → Bool
  | .enable attributes => attributes.contains .altCharset
  | _ => false

theorem decode?_shifts {n : Nat} {change : Rendition} (h : Rendition.decode? n = some change) :
    change.shifts = choosesAlternate n := by
  have hsmall : ∀ n < 50, ∀ change ∈ Rendition.decode? n, change.shifts = choosesAlternate n := by
    decide
  by_cases hn : n < 50
  · exact hsmall n hn change h
  · obtain ⟨k, rfl⟩ : ∃ k, n = k + 50 := ⟨n - 50, by omega⟩
    have hnone : Rendition.decode? (k + 50) = none := by
      simp [Rendition.decode?]
    rw [hnone] at h
    cases h

namespace Interpreter

/-- The byte ends a rendition sequence with a number in it that chooses the alternate set. -/
def shifts (it : Interpreter) (b : UInt8) : Bool :=
  it.mode = .params && b = 0x6D && (closeParams it.params).given.any choosesAlternate

theorem render_unshifted (it : Interpreter) {change : Rendition} (h : change.shifts = false) :
    Unshifted (it.render change).2 := by
  cases change with
  | reset => exact .cons rfl (.one rfl)
  | enable attributes => exact .one h
  | _ => exact .one rfl

theorem renderAll_unshifted (it : Interpreter) {values : List Nat}
    (h : values.any choosesAlternate = false) : Unshifted (it.renderAll values).2 := by
  induction values generalizing it with
  | nil => exact .nil
  | cons n values ih =>
    rw [List.any_cons, Bool.or_eq_false_iff] at h
    rw [renderAll]
    cases hdecode : Rendition.decode? n with
    | none => exact ih it h.2
    | some change =>
      exact (render_unshifted it ((decode?_shifts hdecode).trans h.1)).append (ih _ h.2)

theorem eraseBefore_unshifted (v : Viewport) : Unshifted (eraseBefore v) := by
  refine Unshifted.append (fun a ha => ?_) (.cons rfl (.one rfl))
  obtain ⟨r, -, ha⟩ := List.mem_flatMap.mp ha
  exact Unshifted.cons (a := .move r 0) rfl (.one rfl) a ha

/-- Of all commands only the rendition chooses a character set. -/
theorem execute_unshifted (it : Interpreter) (v : Viewport) {command : Char}
    (h : command = 'm' → it.params.given.any choosesAlternate = false) :
    Unshifted (it.execute v command).actions := by
  unfold execute
  dsimp only
  split
  -- erasing the display or the line
  case h_10 =>
    split
    · exact .one rfl
    · exact eraseBefore_unshifted v
    · exact .one rfl
    · exact .one rfl
    · exact .nil
  case h_11 =>
    split
    · exact .one rfl
    · exact .one rfl
    · exact .one rfl
    · exact .nil
  -- deleting and inserting characters
  case h_14 => exact .replicate _ rfl
  case h_15 => exact .replicate _ rfl
  case h_18 => exact renderAll_unshifted it (h rfl)
  -- reports, the saved cursor and unknown commands
  case h_19 => split <;> exact .nil
  case h_22 => exact .nil
  case h_24 => exact .nil
  all_goals exact .one rfl

theorem given_fillDefaults_nil (p : Params) {f : Nat → Bool} (h : p.given.any f = false) :
    (p.fillDefaults []).given.any f = false := by
  rw [List.any_eq_false] at *
  intro n hn
  obtain ⟨slot, hslot, hsome⟩ := List.mem_filterMap.mp hn
  have hfill : Params.fill p.slots [] = p.slots := by
    cases p.slots <;> rfl
  refine h n (List.mem_filterMap.mpr ⟨slot, ?_, hsome⟩)
  exact hfill ▸ List.mem_of_mem_take hslot

theorem toChar_eq_m {b : UInt8} (h : Bytes.toChar b = 'm') : b = 0x6D := by
  have hcodes : ∀ n < 256, Char.ofNat n = 'm' → n = 0x6D := by decide +kernel
  exact UInt8.toNat_inj.mp (hcodes b.toNat b.toNat_lt h)

theorem step_unshifted (it : Interpreter) (v : Viewport) {b : UInt8} (h : it.shifts b = false) :
    Unshifted (it.step v b).actions := by
  rw [step]
  cases hmode : it.mode with
  | ground =>
    simp only [ground]
    split
    case h_4 =>
      refine .one ?_
      split <;> rfl
    case h_6 => exact .cons rfl (.one rfl)
    case h_8 => exact .nil
    all_goals exact .one rfl
  | escape =>
    simp only [escape]
    split
    · exact .nil
    · exact .cons rfl (.cons rfl (.cons rfl (.one rfl)))
    · exact .cons rfl (.one rfl)
  | params =>
    dsimp only
    split
    · exact .nil
    · split
      · exact .nil
      · refine execute_unshifted _ v fun hm => ?_
        have hb := toChar_eq_m hm
        subst hb
        rw [shifts, hmode] at h
        exact given_fillDefaults_nil _ h

end Interpreter

namespace Display

/-- Some byte chooses the alternate character set. -/
def shifts (d : Display) : Bytes → Bool
  | [] => false
  | b :: bs => d.interpreter.shifts b || (d.feed b).1.shifts bs

theorem feed_usual {d : Display} (h : d.grid.Usual) {b : UInt8}
    (hb : d.interpreter.shifts b = false) : (d.feed b).1.grid.Usual :=
  h.applyAll (Interpreter.step_unshifted _ _ hb)

theorem feedAll_usual {d : Display} (h : d.grid.Usual) {bs : Bytes} (hbs : d.shifts bs = false) :
    (d.feedAll bs).1.grid.Usual := by
  induction bs generalizing d with
  | nil => exact h
  | cons b bs ih =>
    rw [shifts, Bool.or_eq_false_iff] at hbs
    rw [feedAll_cons]
    exact ih (feed_usual h hbs.1) hbs.2

end Display

end Terminal

namespace Interface

/-! ## Glyphs -/

theorem lineDrawing_isControl (c : Char) : isControl (lineDrawing c) = isControl c := by
  unfold lineDrawing
  split <;> first | decide | rfl

/-- **Only a cell in the alternate set is shown by a control character**, and then only if it
holds one. -/
theorem isControl_glyph (cell : Cell) :
    isControl (glyph cell) = (cell.pen.isAlternate && isControl cell.char) := by
  unfold glyph
  dsimp only
  split
  · rename_i h
    rw [lineDrawing_isControl, Pen.isAlternate, h, Bool.true_and]
  · rename_i h
    rw [Pen.isAlternate, Bool.eq_false_iff.mpr h, Bool.false_and]
    split
    · rename_i hlow
      have hpictures : ∀ code < 0x20, isControl (Char.ofNat (0x2400 + code)) = false := by
        decide +kernel
      exact hpictures _ hlow
    · split
      · decide
      · split
        · decide
        · rw [isControl, Bool.or_eq_false_iff, Bool.and_eq_false_iff]
          simp only [decide_eq_false_iff_not]
          omega

/-! ## States of the application -/

namespace App

/-- Some byte of the input chooses the alternate character set. -/
def shifts (a : App) : Input → Bool
  | .event (.console bytes) => a.console.shifts bytes
  | _ => false

/-- States that inputs lead to from the start, and whether one of the inputs has chosen the
alternate character set. -/
inductive Reached : Bool → App → Prop
  | start (cols rows : Nat) : Reached false (.start cols rows)
  | handle {shifted : Bool} {a : App} (h : Reached shifted a) (input : Input) :
    Reached (shifted || a.shifts input) (a.handle input)
  /-- The screen is drawn. -/
  | draw {shifted : Bool} {a : App} (h : Reached shifted a) : Reached shifted a.draw.2
  /-- What has been asked for is taken, or nobody listens any more. -/
  | served {shifted : Bool} {a : App} (h : Reached shifted a) (quit : Option String)
    (consoleOpen debugOpen : Bool) (requests : Array Console.Request)
    (commands : Array (List String)) :
    Reached shifted { a with quit, consoleOpen, debugOpen, requests, commands }

/-- The debug pane is in the usual character set, and so is the console unless something has
chosen the alternate one. -/
structure Clean (shifted : Bool) (a : App) : Prop where
  debug : a.debug.Usual
  console : shifted = false → a.console.grid.Usual

end App

theorem clearGrid_usual {g : Grid} (h : g.Usual) : (clearGrid g).Usual :=
  h.applyAll (.cons rfl (.cons rfl (.cons rfl (.one rfl))))

namespace DebugPane

variable {g : Grid}

theorem write_usual (h : g.Usual) (text : List Char) : (write g text).Usual := by
  refine (h.apply rfl).applyAll fun a ha => ?_
  obtain ⟨c, -, rfl⟩ := List.mem_map.mp ha
  rfl

theorem line_usual (h : g.Usual) (text : List Char) : (line g text).Usual := by
  have hwritten := write_usual h text
  rw [line]
  split
  · rw [newline]
    split
    · exact (hwritten.apply rfl).apply rfl
    · exact hwritten.apply rfl
  · exact hwritten

end DebugPane

namespace App

namespace Clean

variable {shifted : Bool} {a : App} (h : a.Clean shifted)
include h

/-- Nothing that a key does draws in the alternate set. -/
theorem act (x : Act) : (a.act x).Clean shifted := by
  obtain ⟨-, hconsole, hdebug⟩ := a.act_shown x
  constructor
  · rcases hdebug with hkept | ⟨text, hline⟩ | hclear
    · rw [hkept]
      exact h.debug
    · rw [hline]
      exact DebugPane.line_usual h.debug text
    · rw [hclear]
      exact clearGrid_usual h.debug
  · intro hs
    rcases hconsole with hkept | hclear
    · rw [hkept]
      exact h.console hs
    · rw [hclear]
      exact clearGrid_usual (h.console hs)

theorem actAll (acts : List Act) : (a.actAll acts).Clean shifted := by
  induction acts generalizing a with
  | nil => exact h
  | cons x acts ih => exact ih (h.act x)

theorem press (k : Key) : (a.press k).Clean shifted := by
  rw [press_acts]
  exact h.actAll _

end Clean

theorem Clean.consoleOutput {shifted : Bool} {a : App} (h : a.Clean shifted) (bytes : Bytes) :
    (a.consoleOutput bytes).Clean (shifted || a.console.shifts bytes) := by
  have hfed : Clean (shifted || a.console.shifts bytes)
      { a with console := (a.console.feedAll bytes).1 } := by
    refine ⟨h.debug, fun hs => ?_⟩
    rw [Bool.or_eq_false_iff] at hs
    exact Display.feedAll_usual (h.console hs.1) hs.2
  rw [consoleOutput_acts]
  exact hfed.actAll _

theorem Clean.handle {shifted : Bool} {a : App} (h : a.Clean shifted) (input : Input) :
    (a.handle input).Clean (shifted || a.shifts input) := by
  have hsame : ∀ {b : App}, b.Clean shifted → b.Clean (shifted || false) := by
    intro b hb
    rw [Bool.or_false]
    exact hb
  cases input with
  | event event =>
    cases event with
    | console bytes => exact h.consoleOutput bytes
    | line text => exact hsame ⟨DebugPane.line_usual h.debug _, h.console⟩
    | progress text =>
      have hwritten := DebugPane.write_usual h.debug text.toList
      exact hsame ⟨hwritten.apply (a := .move _ 0) rfl, h.console⟩
    | quit reason => exact hsame ⟨h.debug, h.console⟩
  | key k => exact hsame (h.press k)
  | resize cols rows =>
    exact hsame ⟨h.debug.resize _ _, fun hs => (h.console hs).resize _ _⟩

/-- What a run keeps. -/
theorem Reached.clean {shifted : Bool} {a : App} (h : a.Reached shifted) : a.Clean shifted := by
  induction h with
  | start cols rows => exact ⟨Grid.usual_blank _ _, fun _ => Grid.usual_blank _ _⟩
  | handle _ input ih => exact ih.handle input
  | draw _ ih => exact ⟨ih.debug, fun hs => ⟨(ih.console hs).pen, (ih.console hs).cells⟩⟩
  | served _ _ _ _ _ _ ih => exact ⟨ih.debug, ih.console⟩

/-- **What is shown by a control character.**  In every state that inputs lead to, no cell of the
debug pane is; a cell of the console is exactly if it was drawn in the alternate character set and
holds a control character; and none is before the target has chosen that set. -/
theorem glyph_isControl_iff {shifted : Bool} {a : App} (h : a.Reached shifted) :
    Shows (fun cell => isControl (glyph cell) = false) a.debug.lines ∧
      Shows (fun cell => isControl (glyph cell) = true ↔
        cell.pen.attributes.contains .altCharset = true ∧ isControl cell.char = true)
        a.console.grid.lines ∧
      (shifted = false →
        Shows (fun cell => isControl (glyph cell) = false) a.console.grid.lines) := by
  -- in the usual set the glyph is never a control character
  have husual : ∀ {g : Grid}, g.Usual →
      Shows (fun cell => isControl (glyph cell) = false) g.lines := by
    intro g hg line hl cell hc
    rw [isControl_glyph, hg.cells line hl cell hc, Bool.false_and]
  refine ⟨husual h.clean.debug, fun line _ cell _ => ?_, fun hs => husual (h.clean.console hs)⟩
  show isControl (glyph cell) = true ↔ cell.pen.isAlternate = true ∧ isControl cell.char = true
  rw [isControl_glyph, Bool.and_eq_true]

/-- Escapes, a CSI and DEL among usual renditions, and a bell on the debug pane. -/
theorem glyph_isControl_iff_usual :
    let bytes : Bytes := [0x1B, 0x1B, 0x9B, 0x1B, 0x5B, 0x31, 0x3B, 0x31, 0x30, 0x6D, 0x7F]
    let a := ((App.start 6 8).handle (.event (.console bytes))).handle (.event (.line "\x07"))
    Shows (fun cell => isControl (glyph cell) = false) a.console.grid.lines ∧
      Shows (fun cell => isControl (glyph cell) = false) a.debug.lines := by
  intro bytes a
  have hbytes : (App.start 6 8).shifts (.event (.console bytes)) = false := by decide +kernel
  have h := Reached.handle (Reached.handle (.start 6 8) (.event (.console bytes)))
    (.event (.line "\x07"))
  rw [hbytes] at h
  obtain ⟨hdebug, -, hconsole⟩ := glyph_isControl_iff h
  exact ⟨hconsole rfl, hdebug⟩

/-- In the alternate set the target writes a sequence that clears the host's screen. -/
theorem glyph_alternate_escape :
    let bytes : Bytes :=
      [0x1B, 0x5B, 0x31, 0x31, 0x6D, 0x1B, 0x1B, 0x5B, 0x32, 0x4A]
    let a := (App.start 6 8).handle (.event (.console bytes))
    a.Reached true ∧
      (a.console.grid.lines[0]?.getD []).map glyph = ['\x1b', '\x1b', '[', '2', 'J', ' '] := by
  intro bytes a
  have hbytes : (App.start 6 8).shifts (.event (.console bytes)) = true := by decide +kernel
  have h := Reached.handle (.start 6 8) (.event (.console bytes))
  rw [hbytes] at h
  exact ⟨h, by decide +kernel⟩

end App

end Interface

end BoardConsole
