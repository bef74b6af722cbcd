import BoardConsole.Interface.Desk
import BoardConsole.Proofs.Acts

/-!
# The two copies of the colours

The colours in force are kept twice: by the interpreter, which changes one of them at a time, and by
the pen of the grid, which draws with them.  Whenever the target chooses a colour the interpreter
hands both to the pen.  Clearing the console by a key changes those of the pen alone, and then
choosing one colour brings the other one back.

- `Layer`: the two colours, of characters and of what is behind them.
- `Display.chooses`: the bytes that choose the colour of a layer.
- `Display.Follows`: what becomes of the two copies; bytes compose it.
- `Display.agrees_iff_independent`: copies that agree are those whose layers are independent.
- `App.colors_agree_iff`: **in which states the two copies agree**.
-/

namespace BoardConsole

namespace Terminal

/-! ## Layers -/

/-- What has a colour. -/
inductive Layer
  /-- The characters. -/
  | foreground
  /-- What is behind them. -/
  | background
  deriving DecidableEq, Repr

/-- The colour of a layer. -/
def Layer.of : Layer → Color × Color → Color
  | .foreground, colors => colors.1
  | .background, colors => colors.2

theorem Layer.ext {c c' : Color × Color} (h : ∀ l : Layer, l.of c = l.of c') : c = c' :=
  Prod.ext (h .foreground) (h .background)

theorem Layer.exists_iff {p : Layer → Prop} : (∃ l, p l) ↔ p .foreground ∨ p .background := by
  constructor
  · rintro ⟨l, hl⟩
    cases l
    · exact .inl hl
    · exact .inr hl
  · rintro (hl | hl)
    · exact ⟨_, hl⟩
    · exact ⟨_, hl⟩

/-- The colours that the pen draws with. -/
def Pen.colors (pen : Pen) : Color × Color := (pen.foreground, pen.background)

/-- The colours that the interpreter has chosen. -/
def Interpreter.colors (it : Interpreter) : Color × Color := (it.foreground, it.background)

/-! ## What chooses a colour -/

/-- The number is that of a rendition that chooses the colour of the layer. -/
def Layer.chosenBy (l : Layer) (n : Nat) : Bool :=
  n = 0 || match l with
    | .foreground => (30 ≤ n && n ≤ 37) || n = 39
    | .background => (40 ≤ n && n ≤ 47) || n = 49

/-- The change of the rendition chooses the colour of the layer. -/
def Rendition.chooses (l : Layer) : Rendition → Bool
  | .reset => true
  | .foreground _ => l = .foreground
  | .background _ => l = .background
  | _ => false

theorem any_decode? (l : Layer) (n : Nat) :
    (Rendition.decode? n).any (Rendition.chooses l) = l.chosenBy n := by
  have hsmall : ∀ n < 50, (Rendition.decode? n).any (Rendition.chooses l) = l.chosenBy n := by
    cases l <;> decide
  by_cases hn : n < 50
  · exact hsmall n hn
  · obtain ⟨k, rfl⟩ : ∃ k, n = k + 50 := ⟨n - 50, by omega⟩
    cases l <;> simp [Rendition.decode?, Layer.chosenBy]

/-! ## What becomes of the two copies -/

namespace Display

/-- The two copies of the colours are the same. -/
def Agrees (d : Display) : Prop := d.interpreter.colors = d.grid.pen.colors

/-- What becomes of the two copies where the colours of some layers are chosen.  The interpreter
keeps those of the others; the pen gets both if there was a choice, and none if there was none. -/
structure Follows (chosen : Layer → Bool) (d d' : Display) : Prop where
  keeps : ∀ l, chosen l = false → l.of d'.interpreter.colors = l.of d.interpreter.colors
  handed : ∀ l, chosen l = true → d'.Agrees
  untouched : (∀ l, chosen l = false) → d'.grid.pen.colors = d.grid.pen.colors

namespace Follows

variable {chosen chosen' : Layer → Bool} {d d₁ d₂ : Display}

theorem of_same (hinterpreter : d₁.interpreter.colors = d.interpreter.colors)
    (hpen : d₁.grid.pen.colors = d.grid.pen.colors) : Follows (fun _ => false) d d₁ where
  keeps l _ := by rw [hinterpreter]
  handed l h := Bool.noConfusion h
  untouched _ := hpen

theorem trans (h : Follows chosen d d₁) (h' : Follows chosen' d₁ d₂) :
    Follows (fun l => chosen l || chosen' l) d d₂ where
  keeps l hl := by
    rw [Bool.or_eq_false_iff] at hl
    exact (h'.keeps l hl.2).trans (h.keeps l hl.1)
  handed l hl := by
    by_cases hlater : ∃ l, chosen' l = true
    · obtain ⟨l', hl'⟩ := hlater
      exact h'.handed l' hl'
    · -- nothing was chosen later, so both copies are as they were handed over
      have hnone : ∀ l, chosen' l = false := fun l => Bool.eq_false_iff.mpr fun h => hlater ⟨l, h⟩
      rw [hnone l, Bool.or_false] at hl
      have hsame : d₂.interpreter.colors = d₁.interpreter.colors :=
        Layer.ext fun l => h'.keeps l (hnone l)
      exact hsame.trans ((h.handed l hl).trans (h'.untouched hnone).symm)
  untouched hnone := by
    have hneither : ∀ l, chosen l = false ∧ chosen' l = false := fun l =>
      Bool.or_eq_false_iff.mp (hnone l)
    exact (h'.untouched fun l => (hneither l).2).trans (h.untouched fun l => (hneither l).1)

/-- **When the copies agree afterwards.** -/
theorem agrees_iff (h : Follows chosen d d₁) : d₁.Agrees ↔ d.Agrees ∨ ∃ l, chosen l = true := by
  by_cases hchosen : ∃ l, chosen l = true
  · obtain ⟨l, hl⟩ := hchosen
    exact iff_of_true (h.handed l hl) (.inr ⟨l, hl⟩)
  · have hnone : ∀ l, chosen l = false := fun l => Bool.eq_false_iff.mpr fun h => hchosen ⟨l, h⟩
    have hsame : d₁.interpreter.colors = d.interpreter.colors :=
      Layer.ext fun l => h.keeps l (hnone l)
    rw [Agrees, hsame, h.untouched hnone]
    exact (or_iff_left hchosen).symm

end Follows

end Display

/-! ### Actions -/

/-- The colours that an action hands to the pen. -/
def Action.colors? : Action → Option (Color × Color)
  | .setColors foreground background => some (foreground, background)
  | _ => none

namespace Grid

theorem apply_colors (g : Grid) {a : Action} (h : a.colors? = none) :
    (g.apply a).pen.colors = g.pen.colors := by
  cases a with
  | write char =>
    show (g.writeChar char).pen.colors = g.pen.colors
    unfold writeChar
    dsimp only
    split
    · rfl
    · split <;> rfl
  | eraseDisplay part => cases part <;> rfl
  | scroll lines =>
    show (g.scroll lines).pen.colors = g.pen.colors
    unfold scroll
    split <;> rfl
  | setColors foreground background => cases h
  | _ => rfl

theorem applyAll_colors (g : Grid) {actions : List Action}
    (h : actions.filterMap Action.colors? = []) : (g.applyAll actions).pen.colors = g.pen.colors := by
  induction actions generalizing g with
  | nil => rfl
  | cons a actions ih =>
    have hnone := List.filterMap_eq_nil_iff.mp h
    have hrest : actions.filterMap Action.colors? = [] :=
      List.filterMap_eq_nil_iff.mpr fun x hx => hnone x (List.mem_cons_of_mem a hx)
    exact (ih (g.apply a) hrest).trans (g.apply_colors (hnone a List.mem_cons_self))

end Grid

/-! ### Renditions -/

namespace Interpreter

open Display (Follows)

/-- An interpreter and a grid after something that the interpreter has led to. -/
def after (g : Grid) (out : Interpreter × List Action) : Display := ⟨out.1, g.applyAll out.2⟩

theorem render_follows (it : Interpreter) (g : Grid) (change : Rendition) :
    Follows (fun l => change.chooses l) ⟨it, g⟩ (after g (it.render change)) := by
  cases change with
  | reset => exact ⟨nofun, fun l _ => rfl, fun hnone => nomatch hnone .foreground⟩
  | enable attributes => exact .of_same rfl rfl
  | disable attributes => exact .of_same rfl rfl
  | foreground color =>
    refine ⟨fun l hl => ?_, fun l _ => rfl, fun hnone => nomatch hnone .foreground⟩
    cases l with
    | foreground => cases hl
    | background => rfl
  | background color =>
    refine ⟨fun l hl => ?_, fun l _ => rfl, fun hnone => nomatch hnone .background⟩
    cases l with
    | foreground => rfl
    | background => cases hl

theorem renderAll_follows (it : Interpreter) (g : Grid) (values : List Nat) :
    Follows (fun l => values.any l.chosenBy) ⟨it, g⟩ (after g (it.renderAll values)) := by
  induction values generalizing it g with
  | nil => exact .of_same rfl rfl
  | cons n values ih =>
    have hnumber : ∀ l : Layer, (Rendition.decode? n).any (Rendition.chooses l) = l.chosenBy n :=
      fun l => any_decode? l n
    rw [renderAll]
    simp only [List.any_cons]
    cases hdecode : Rendition.decode? n with
    | none =>
      simp only [hdecode, Option.any_none] at hnumber
      simp only [← hnumber, Bool.false_or]
      exact ih it g
    | some change =>
      simp only [hdecode, Option.any_some] at hnumber
      have htwo := (it.render_follows g change).trans (ih _ _)
      simp only [← hnumber]
      have happend : (after g (it.render change)).grid.applyAll
            ((it.render change).1.renderAll values).2
          = g.applyAll ((it.render change).2 ++ ((it.render change).1.renderAll values).2) :=
        List.foldl_append.symm
      show Follows _ _ ⟨_, g.applyAll (_ ++ _)⟩
      rw [← happend]
      exact htwo

theorem eraseBefore_colors (v : Viewport) : (eraseBefore v).filterMap Action.colors? = [] := by
  refine List.filterMap_eq_nil_iff.mpr fun a ha => ?_
  simp only [eraseBefore, List.mem_append, List.mem_flatMap, List.mem_cons, List.not_mem_nil,
    or_false] at ha
  rcases ha with ⟨r, -, rfl | rfl⟩ | rfl | rfl
  · rfl
  · rfl
  · rfl
  · rfl

/-- Of all commands only the rendition chooses colours. -/
theorem execute_colors (it : Interpreter) (v : Viewport) {command : Char} (h : command ≠ 'm') :
    (it.execute v command).next.colors = it.colors ∧
      (it.execute v command).actions.filterMap Action.colors? = [] := by
  unfold execute
  dsimp only
  split
  -- erasing the display or the line
  case h_10 =>
    split
    case h_2 => exact ⟨rfl, eraseBefore_colors v⟩
    all_goals exact ⟨rfl, rfl⟩
  case h_11 => split <;> exact ⟨rfl, rfl⟩
  -- deleting and inserting characters
  case h_14 => exact ⟨rfl, List.filterMap_replicate_of_none rfl⟩
  case h_15 => exact ⟨rfl, List.filterMap_replicate_of_none rfl⟩
  case h_18 => exact absurd rfl h
  case h_19 => split <;> exact ⟨rfl, rfl⟩
  all_goals exact ⟨rfl, rfl⟩

/-- In plain text no colour is chosen. -/
theorem ground_colors (it : Interpreter) (v : Viewport) (b : UInt8) :
    (it.ground v b).next.colors = it.colors ∧
      (it.ground v b).actions.filterMap Action.colors? = [] := by
  unfold ground
  split
  case h_4 => split <;> exact ⟨rfl, rfl⟩
  all_goals exact ⟨rfl, rfl⟩

end Interpreter

/-! ## What chooses a colour in a stream -/

namespace Interpreter

/-- The numbers of the sequence that is being read, should it end as a rendition. -/
def numbers (it : Interpreter) : List Nat := ((closeParams it.params).fillDefaults []).given

/-- The byte completes something that chooses the colour of the layer: a rendition or a reset. -/
def chooses (it : Interpreter) (l : Layer) (b : UInt8) : Bool :=
  match it.mode with
  | .ground => false
  | .escape => b = 0x63
  | .params => b = 0x6D && it.numbers.any l.chosenBy

end Interpreter

namespace Display

/-- Some byte completes something that chooses the colour of the layer. -/
def chooses (d : Display) (l : Layer) : Bytes → Bool
  | [] => false
  | b :: bs => d.interpreter.chooses l b || (d.feed b).1.chooses l bs

/-- Where a step leaves the colours alone, both copies stay. -/
theorem feed_of_plain (d : Display) (b : UInt8)
    (h : (d.interpreter.step d.grid.viewport b).next.colors = d.interpreter.colors ∧
      (d.interpreter.step d.grid.viewport b).actions.filterMap Action.colors? = []) :
    Follows (fun _ => false) d (d.feed b).1 :=
  .of_same h.1 (d.grid.applyAll_colors h.2)

/-- A byte after ESC chooses both colours if it resets the terminal, and none otherwise. -/
theorem feed_escape_follows (it : Interpreter) (g : Grid) (hmode : it.mode = .escape) (b : UInt8) :
    Follows (fun _ => b = 0x63) ⟨it, g⟩ (feed ⟨it, g⟩ b).1 := by
  have hstep : it.step g.viewport b = it.escape b := by rw [Interpreter.step, hmode]
  have hplain := feed_of_plain ⟨it, g⟩ b
  simp only [feed, hstep] at hplain ⊢
  by_cases hb : b = 0x63
  · subst hb
    exact ⟨fun l hl => Bool.noConfusion hl, fun l _ => rfl,
      fun hnone => Bool.noConfusion (hnone .foreground)⟩
  · rw [decide_eq_false hb]
    refine hplain ?_
    unfold Interpreter.escape
    split
    · exact ⟨rfl, rfl⟩
    · exact absurd rfl hb
    · exact ⟨rfl, rfl⟩

/-- A byte in a sequence chooses colours only if it ends the sequence as a rendition. -/
theorem feed_params_follows (it : Interpreter) (g : Grid) (hmode : it.mode = .params) (b : UInt8) :
    Follows (fun l => b = 0x6D && it.numbers.any l.chosenBy) ⟨it, g⟩ (feed ⟨it, g⟩ b).1 := by
  by_cases hb : b = 0x6D
  · subst hb
    have hstep : it.step g.viewport 0x6D = it.finish g.viewport 0x6D := by
      rw [Interpreter.step, hmode]
      rfl
    rw [decide_eq_true rfl]
    simp only [feed, hstep, Bool.true_and]
    let closed : Interpreter :=
      { it with mode := .ground, params := (Interpreter.closeParams it.params).fillDefaults [] }
    have hclosed : Follows (fun _ => false) ⟨it, g⟩ ⟨closed, g⟩ := .of_same rfl rfl
    exact hclosed.trans (closed.renderAll_follows g it.numbers)
  · have hplain := feed_of_plain ⟨it, g⟩ b
    rw [decide_eq_false hb]
    refine hplain ?_
    simp only [Interpreter.step, hmode]
    split
    · exact ⟨rfl, rfl⟩
    · split
      · exact ⟨rfl, rfl⟩
      · refine Interpreter.execute_colors _ g.viewport fun hchar => hb ?_
        have hcode := congrArg Char.toNat hchar
        rw [Bytes.toNat_toChar] at hcode
        exact UInt8.toNat_inj.mp hcode

theorem feed_follows (d : Display) (b : UInt8) :
    Follows (fun l => d.interpreter.chooses l b) d (d.feed b).1 := by
  obtain ⟨it, g⟩ := d
  unfold Interpreter.chooses
  cases hmode : it.mode with
  | ground =>
    refine feed_of_plain ⟨it, g⟩ b ?_
    rw [Interpreter.step, hmode]
    exact it.ground_colors _ b
  | escape => exact feed_escape_follows it g hmode b
  | params => exact feed_params_follows it g hmode b

theorem feedAll_follows (d : Display) (bs : Bytes) :
    Follows (fun l => d.chooses l bs) d (d.feedAll bs).1 := by
  induction bs generalizing d with
  | nil => exact .of_same rfl rfl
  | cons b bs ih =>
    rw [feedAll_cons]
    exact (d.feed_follows b).trans (ih _)

/-! ## Copies that agree -/

/-- The byte ends whatever is being read, and the sequence behind it chooses the standard colour of
the layer. -/
def probe : Layer → Bytes
  | .foreground => [0x7A, 0x1B, 0x5B, 0x33, 0x39, 0x6D]
  | .background => [0x7A, 0x1B, 0x5B, 0x34, 0x39, 0x6D]

/-- Whatever is being read, the byte leads to plain text. -/
theorem feed_ends (d : Display) : (d.feed 0x7A).1.interpreter.mode = .ground := by
  show (d.interpreter.step d.grid.viewport 0x7A).next.mode = .ground
  rw [Interpreter.step]
  cases hmode : d.interpreter.mode with
  | ground => exact hmode
  | escape => rfl
  | params => rfl

/-- In plain text a sequence opens. -/
theorem feed_opens (it : Interpreter) (g : Grid) (hmode : it.mode = .ground) :
    (feed ⟨it, g⟩ 0x1B).1 = ⟨{ it with mode := .escape }, g⟩ ∧
      (feed ⟨{ it with mode := .escape }, g⟩ 0x5B).1
        = ⟨{ it with mode := .params, params := {} }, g⟩ := by
  refine ⟨?_, rfl⟩
  rw [feed, Interpreter.step, hmode]
  rfl

theorem feed_digit (it : Interpreter) (g : Grid) (hmode : it.mode = .params) {b : UInt8}
    (hb : 0x30 ≤ b ∧ b ≤ 0x39) :
    (feed ⟨it, g⟩ b).1 = ⟨{ it with params := it.params.pushDigit (b.toNat - 0x30) }, g⟩ := by
  rw [feed, Interpreter.step, hmode]
  dsimp only
  rw [if_pos hb]
  rfl

/-- A sequence that chooses a standard colour chooses nothing else. -/
theorem chooses_sequence (it : Interpreter) (g : Grid) (hmode : it.mode = .ground) (l l' : Layer) :
    chooses ⟨it, g⟩ l ((probe l').drop 1) = decide (l = l') := by
  obtain ⟨hescape, hparams⟩ := feed_opens it g hmode
  have hdigit : ∀ (p : Params) (b : UInt8), 0x30 ≤ b ∧ b ≤ 0x39 →
      (feed ⟨{ it with mode := .params, params := p }, g⟩ b).1
        = ⟨{ it with mode := .params, params := p.pushDigit (b.toNat - 0x30) }, g⟩ :=
    fun p b hb => feed_digit _ g rfl hb
  cases l' with
  | foreground =>
    simp only [probe, List.drop_succ_cons, List.drop_zero, chooses, Interpreter.chooses, hmode,
      hescape, hparams, hdigit _ 0x33 (by decide), hdigit _ 0x39 (by decide)]
    cases l <;> rfl
  | background =>
    simp only [probe, List.drop_succ_cons, List.drop_zero, chooses, Interpreter.chooses, hmode,
      hescape, hparams, hdigit _ 0x34 (by decide), hdigit _ 0x39 (by decide)]
    cases l <;> rfl

theorem chooses_probe (d : Display) (l l' : Layer) : d.chooses l (probe l') = decide (l = l') := by
  have hfirst : d.interpreter.chooses l 0x7A = false := by
    unfold Interpreter.chooses
    cases d.interpreter.mode <;> rfl
  have hrest := chooses_sequence (d.feed 0x7A).1.interpreter (d.feed 0x7A).1.grid d.feed_ends l l'
  cases l' with
  | foreground => exact (congrArg (· || _) hfirst).trans hrest
  | background => exact (congrArg (· || _) hfirst).trans hrest

/-- **Copies that agree are those whose layers are independent**: the colour that the pen has for a
layer stays until something chooses the colour of that layer. -/
theorem agrees_iff_independent (d : Display) :
    d.Agrees ↔ ∀ (l : Layer) (bytes : Bytes), d.chooses l bytes = false →
      l.of (d.feedAll bytes).1.grid.pen.colors = l.of d.grid.pen.colors := by
  constructor
  · intro h l bytes hl
    have hfollows := d.feedAll_follows bytes
    have hafter : (d.feedAll bytes).1.Agrees := hfollows.agrees_iff.mpr (.inl h)
    rw [← hafter, ← h]
    exact hfollows.keeps l hl
  · intro h
    refine Layer.ext fun l => ?_
    -- choosing the colour of the other layer hands both colours to the pen
    obtain ⟨l', hl'⟩ : ∃ l' : Layer, l ≠ l' := by
      cases l
      · exact ⟨.background, nofun⟩
      · exact ⟨.foreground, nofun⟩
    have hother : d.chooses l (probe l') = false :=
      (d.chooses_probe l l').trans (decide_eq_false hl')
    have hchosen : d.chooses l' (probe l') = true :=
      (d.chooses_probe l' l').trans (decide_eq_true rfl)
    have hfollows := d.feedAll_follows (probe l')
    rw [← h l (probe l') hother, ← hfollows.handed l' hchosen]
    exact (hfollows.keeps l hother).symm

end Display

end Terminal

namespace Interface

open Terminal (Display Layer Pen Interpreter)

namespace App

/-! ## States of the application -/

/-- Whether the two copies are apart after an input, given whether they were before: choosing a
colour brings them together, and clearing the console sets them apart unless the interpreter has
the standard colours. -/
def sets (a : App) (apart : Bool) : Input → Bool
  | .event (.console bytes) =>
    apart && !(a.console.chooses .foreground bytes || a.console.chooses .background bytes)
  | .key k =>
    if a.clears k then a.console.interpreter.colors ≠ (.standard, .standard) else apart
  | _ => apart

/-- States that inputs lead to from the start, and whether the inputs have set the two copies
apart. -/
inductive Coloured : Bool → App → Prop
  | start (cols rows : Nat) : Coloured false (.start cols rows)
  | handle {apart : Bool} {a : App} (h : Coloured apart a) (input : Input) :
    Coloured (a.sets apart input) (a.handle input)
  /-- The screen is drawn. -/
  | draw {apart : Bool} {a : App} (h : Coloured apart a) : Coloured apart a.draw.2
  /-- What has been asked for is taken, or nobody listens any more. -/
  | served {apart : Bool} {a : App} (h : Coloured apart a) (quit : Option String)
    (consoleOpen debugOpen : Bool) (requests : Array Console.Request)
    (commands : Array (List String)) :
    Coloured apart { a with quit, consoleOpen, debugOpen, requests, commands }

theorem Coloured.handle_of {apart apart' : Bool} {a : App} (h : a.Coloured apart) {input : Input}
    (hsets : a.sets apart input = apart') : (a.handle input).Coloured apart' :=
  hsets ▸ h.handle input

/-- The two copies of a terminal that inputs may have set apart. -/
structure Copies (apart : Bool) (d : Display) : Prop where
  agree : d.Agrees ↔ apart = false
  cleared : apart = true → d.grid.pen.colors = (.standard, .standard)

theorem consoleOutput_console (a : App) (bytes : Bytes) :
    (a.consoleOutput bytes).console = (a.console.feedAll bytes).1 := by
  rw [consoleOutput_acts]
  exact actAll_console _ (Act.marks_of_minor (minor_replyActs _)).2

namespace Copies

variable {apart : Bool} {d d' : Display}

theorem of_same (h : Copies apart d) (hinterpreter : d'.interpreter.colors = d.interpreter.colors)
    (hpen : d'.grid.pen.colors = d.grid.pen.colors) : Copies apart d' where
  agree := by rw [Display.Agrees, hinterpreter, hpen]; exact h.agree
  cleared hapart := hpen.trans (h.cleared hapart)

/-- Bytes from the target bring the copies together if they choose a colour. -/
theorem feedAll (h : Copies apart d) (bytes : Bytes) :
    Copies (apart && !(d.chooses .foreground bytes || d.chooses .background bytes))
      (d.feedAll bytes).1 := by
  have hfollows := d.feedAll_follows bytes
  constructor
  · rw [hfollows.agrees_iff, h.agree, Layer.exists_iff, Bool.and_eq_false_iff, Bool.not_eq_false',
      Bool.or_eq_true]
  · intro hapart
    rw [Bool.and_eq_true, Bool.not_eq_true', Bool.or_eq_false_iff] at hapart
    obtain ⟨hapart, hforeground, hbackground⟩ := hapart
    refine (hfollows.untouched fun l => ?_).trans (h.cleared hapart)
    cases l
    · exact hforeground
    · exact hbackground

end Copies

/-- Clearing gives the pen the standard colours. -/
theorem copies_clearConsole (a : App) :
    Copies (a.console.interpreter.colors ≠ (.standard, .standard)) a.clearConsole.console where
  agree := (decide_eq_false_iff_not.trans Classical.not_not).symm
  cleared _ := rfl

/-- What one input does to the two copies. -/
theorem Copies.handle {apart : Bool} {a : App} (h : Copies apart a.console) (input : Input) :
    Copies (a.sets apart input) (a.handle input).console := by
  cases input with
  | event event =>
    cases event with
    | console bytes =>
      show Copies _ (a.consoleOutput bytes).console
      rw [consoleOutput_console]
      exact h.feedAll bytes
    | _ => exact h
  | key k =>
    show Copies (if a.clears k then _ else apart) (a.press k).console
    rw [press_console]
    cases a.clears k with
    | true => exact a.copies_clearConsole
    | false => exact h
  | resize cols rows => exact h.of_same rfl rfl

/-- What a run keeps. -/
theorem Coloured.copies {apart : Bool} {a : App} (h : a.Coloured apart) :
    Copies apart a.console := by
  induction h with
  | start cols rows => exact ⟨iff_of_true rfl rfl, nofun⟩
  | handle _ input ih => exact ih.handle input
  | draw _ ih => exact ih.of_same rfl rfl
  | served _ _ _ _ _ _ ih => exact ih

/-- **In which states the two copies of the colours agree.**  In every state that inputs lead to
they do unless a key has cleared the console while the interpreter had chosen another colour than
the standard ones, and the target has chosen no colour since.  While they do not, the pen has the
standard colours.  They agree exactly if choosing the colour of one layer never changes the colour
that the pen has for the other. -/
theorem colors_agree_iff {apart : Bool} {a : App} (h : a.Coloured apart) :
    (a.console.interpreter.colors = a.console.grid.pen.colors ↔ apart = false) ∧
      (apart = true → a.console.grid.pen.colors = (.standard, .standard)) ∧
      (apart = false ↔ ∀ (l : Layer) (bytes : Bytes), a.console.chooses l bytes = false →
        l.of (a.handle (.event (.console bytes))).console.grid.pen.colors
          = l.of a.console.grid.pen.colors) := by
  have hcopies := h.copies
  refine ⟨hcopies.agree, hcopies.cleared, ?_⟩
  rw [← hcopies.agree, Display.agrees_iff_independent]
  simp only [handle, consoleOutput_console]

/-- Red is chosen, the console is cleared by the keys for that, and green is chosen behind: the
copies are apart, and then they are together again. -/
theorem colors_agree_cleared :
    let red := (App.start 6 8).handle (.event (.console [0x1B, 0x5B, 0x33, 0x31, 0x6D]))
    let cleared := (red.handle (.key { code := .char ']', control := true })).handle
      (.key { code := .char 'c' })
    let green := cleared.handle (.event (.console [0x1B, 0x5B, 0x34, 0x32, 0x6D]))
    cleared.console.grid.pen.colors = (.standard, .standard) ∧
      green.console.interpreter.colors = green.console.grid.pen.colors := by
  intro red cleared green
  have hred : Coloured false red := (Coloured.start 6 8).handle_of (by decide +kernel)
  have hpressed : Coloured false (red.handle (.key { code := .char ']', control := true })) :=
    hred.handle_of (by decide +kernel)
  have hcleared : Coloured true cleared := hpressed.handle_of (by decide +kernel)
  have hgreen : Coloured false green := hcleared.handle_of (by decide +kernel)
  exact ⟨(colors_agree_iff hcleared).2.1 rfl, (colors_agree_iff hgreen).1.mpr rfl⟩

/-- After the console has been cleared, a sequence that chooses the background alone changes the
foreground, too. -/
theorem colors_disagree_cleared :
    let red := (App.start 6 8).handle (.event (.console [0x1B, 0x5B, 0x33, 0x31, 0x6D]))
    let cleared := (red.handle (.key { code := .char ']', control := true })).handle
      (.key { code := .char 'c' })
    let bytes : Bytes := [0x1B, 0x5B, 0x34, 0x32, 0x6D]
    cleared.console.interpreter.colors ≠ cleared.console.grid.pen.colors ∧
      cleared.console.chooses .foreground bytes = false ∧
      Layer.foreground.of cleared.console.grid.pen.colors = .standard ∧
      Layer.foreground.of (cleared.handle (.event (.console bytes))).console.grid.pen.colors
        = .red := by
  decide +kernel

end App

end Interface

end BoardConsole
