import BoardConsole.Proofs.Tokens

/-!
# The operands of a control sequence

The text of a control sequence spells decimal numbers of any length, and some of its fields may be
empty or missing: those are its operands.  What a command gets to see are parameters of 32 bits with
its defaults in the empty places.

- `Token.operand?`: the number in a field of the text.
- `Display.get_closing`: **a parameter is its operand**, or the default, cut off at the greatest
  number of 32 bits.
- `Display.feedAll_drawing`: what a terminal does with the sequence of a command that only draws.
-/

namespace BoardConsole.Terminal

/-- The bytes of a command: ESC `[`, the text of its parameters, and its letter. -/
def controlSequence (text : Bytes) (letter : Char) : Bytes :=
  0x1B :: 0x5B :: (text ++ [Bytes.ofChar letter])

/-! ## Fields -/

namespace Token

/-- The number that the digits of a field spell. -/
def decimal (field : Bytes) : Nat := Nat.ofDigitChars 10 (field.map Bytes.toChar) 0

/-- The number in a field of a parameter text, as long as it may be.  There is none in a field that
is empty, and none behind the last field. -/
def operand? (text : Bytes) (index : Nat) : Option Nat :=
  match (text.splitOn 0x3B)[index]? with
  | none => none
  | some [] => none
  | some field => some (decimal field)

/-- A field without digits, a number beyond 32 bits, and no field at all. -/
example : operand? [0x3B, 0x34, 0x32, 0x39, 0x34, 0x39, 0x36, 0x37, 0x32, 0x39, 0x36] 0 = none ∧
    operand? [0x3B, 0x34, 0x32, 0x39, 0x34, 0x39, 0x36, 0x37, 0x32, 0x39, 0x36] 1
      = some 4294967296 ∧
    operand? [0x3B, 0x34, 0x32, 0x39, 0x34, 0x39, 0x36, 0x37, 0x32, 0x39, 0x36] 2 = none := by
  decide

/-- The last field is left out if it is empty, and there was no number in it. -/
theorem bind_place_fields (text : Bytes) (index : Nat) :
    (fields text)[index]?.bind place = (operand? text index).map (min · Params.greatest) := by
  have hpiece : (text.splitOn 0x3B)[index]?.bind place
      = (operand? text index).map (min · Params.greatest) := by
    rw [operand?]
    cases (text.splitOn 0x3B)[index]? with
    | none => rfl
    | some field => cases field <;> rfl
  rw [← hpiece, fields]
  split
  · rename_i hempty
    rw [List.getElem?_dropLast]
    split
    · rfl
    · -- only the piece that was left out can be there, and it is empty
      rw [List.getLast?_eq_getElem?] at hempty
      by_cases hlast : index = (text.splitOn 0x3B).length - 1
      · rw [hlast, hempty]
        rfl
      · rw [List.getElem?_eq_none (by omega)]
  · rfl

end Token

/-! ## Parameters -/

namespace Params

variable {defaults : List Nat} {index default : Nat} (h : defaults[index]? = some default)
include h

/-- A place that has a default keeps the number it has, and gets the default if it has none. -/
theorem getElem?_fill (slots : List (Option Nat)) :
    (fill slots defaults)[index]? = some (some (slots[index]?.join.getD default)) := by
  induction defaults generalizing slots index with
  | nil => cases h
  | cons d defaults ih =>
    cases index with
    | zero =>
      obtain rfl : d = default := Option.some.inj h
      cases slots <;> rfl
    | succ index =>
      have hrest : defaults[index]? = some default := h
      cases slots with
      | nil => exact ih hrest []
      | cons slot slots => exact ih hrest slots

theorem get_fillDefaults (p : Params) (hcapacity : index < capacity) :
    (p.fillDefaults defaults).get index = p.slots[index]?.join.getD default := by
  rw [get, fillDefaults, List.getElem?_take_of_lt hcapacity, getElem?_fill h p.slots]
  rfl

end Params

/-- The slots hold the operands, cut off at the greatest number of 32 bits. -/
theorem Token.join_params (text : Bytes) {index : Nat} (hcapacity : index < Params.capacity) :
    (params text).slots[index]?.join = (operand? text index).map (min · Params.greatest) := by
  show (((fields text).map place).take Params.capacity)[index]?.join = _
  rw [List.getElem?_take_of_lt hcapacity, List.getElem?_map, ← bind_place_fields]
  cases (fields text)[index]? <;> rfl

/-- There is a place for every default, and none is cut off. -/
theorem Interpreter.defaults_fit {letter : Char} {index default : Nat}
    (h : (defaults letter)[index]? = some default) :
    index < Params.capacity ∧ default ≤ Params.greatest := by
  have hall : (defaults letter).length ≤ 2 ∧ ∀ n ∈ defaults letter, n ≤ 6 := by
    unfold defaults
    split
    all_goals decide
  obtain ⟨hplace, -⟩ := List.getElem?_eq_some_iff.mp h
  have hsmall := hall.2 default (List.mem_of_getElem? h)
  rw [Params.capacity, Params.greatest]
  omega

/-! ## Commands that draw -/

/-- The interpreter at the final byte of a sequence. -/
def Display.closing (d : Display) (text : Bytes) (letter : Char) : Interpreter :=
  { params := (Token.params text).fillDefaults (Interpreter.defaults letter)
    foreground := d.interpreter.foreground
    background := d.interpreter.background
    saved := d.interpreter.saved }

/-- **What a command gets to see is its operand**, or its default if there is none, and at most the
greatest number of 32 bits. -/
theorem Display.get_closing (d : Display) (text : Bytes) {letter : Char} {index default : Nat}
    (h : (Interpreter.defaults letter)[index]? = some default) :
    (d.closing text letter).params.get index
      = min ((Token.operand? text index).getD default) Params.greatest := by
  obtain ⟨hcapacity, hgreatest⟩ := Interpreter.defaults_fit h
  rw [closing, Params.get_fillDefaults h _ hcapacity, Token.join_params text hcapacity]
  cases Token.operand? text index with
  | none => exact (Nat.min_eq_left hgreatest).symm
  | some n => rfl

/-- The letter of a command is a final byte. -/
theorem isParameter_command {letter : Char} (h : Interpreter.isCommand letter) :
    isParameter (Bytes.ofChar letter) = false ∧ Bytes.toChar (Bytes.ofChar letter) = letter := by
  have hall : ['A', 'B', 'C', 'D', 'E', 'F', 'G', 'H', 'f', 'J', 'K', 'L', 'M', 'P', '@', 'S', 'T',
      'm', 'n', 'p', 'q', 's', 'u'].all fun c =>
        !isParameter (Bytes.ofChar c) && Bytes.toChar (Bytes.ofChar c) = c := by
    decide +kernel
  have hfinal := List.all_eq_true.mp hall letter (of_decide_eq_true h)
  rw [Bool.and_eq_true, Bool.not_eq_true', decide_eq_true_eq] at hfinal
  exact hfinal

namespace Display

variable {d : Display} (hmode : d.interpreter.mode = .ground) {text : Bytes}
  (htext : ∀ b ∈ text, isParameter b) {letter : Char} (hletter : Interpreter.isCommand letter)
include hmode htext hletter

/-- A control sequence is carried out as a command. -/
theorem feedAll_command :
    (d.feedAll (controlSequence text letter)).1.interpreter.mode = .ground ∧
      ((d.feedAll (controlSequence text letter)).1.picture,
          (d.feedAll (controlSequence text letter)).2)
        = d.picture.command (Token.params text) letter := by
  obtain ⟨hfinal, hname⟩ := isParameter_command hletter
  have hspelled := feedAll_spelling hmode (t := .sequence text (Bytes.ofChar letter))
    ⟨htext, hfinal⟩
  rw [Picture.perform, hname] at hspelled
  exact hspelled

/-- A command that draws leaves all but the grid as it is, and there is no answer. -/
theorem feedAll_drawing {actions : List Action} {g : Grid}
    (hexecute : (d.closing text letter).execute d.grid.viewport letter
      = ⟨d.closing text letter, actions, []⟩)
    (hdrawn : d.grid.applyAll actions = g) :
    let out := d.feedAll (controlSequence text letter)
    out.1.interpreter.mode = .ground ∧ out.1.grid = g ∧
      out.1.picture = { d.picture with grid := out.1.grid } ∧ out.2 = [] := by
  intro out
  obtain ⟨hground, heffect⟩ := feedAll_command hmode htext hletter
  have hcommand : d.picture.command (Token.params text) letter
      = ({ d.picture with grid := g }, []) := by
    show (let step := (d.closing text letter).execute d.grid.viewport letter
      ((⟨d.grid.applyAll step.actions, step.next.foreground, step.next.background,
        step.next.saved⟩ : Picture), step.reply)) = _
    rw [hexecute, ← hdrawn]
    rfl
  rw [hcommand] at heffect
  have hpicture : out.1.picture = { d.picture with grid := g } := congrArg Prod.fst heffect
  have hgrid : out.1.grid = g := congrArg Picture.grid hpicture
  refine ⟨hground, hgrid, ?_, congrArg Prod.snd heffect⟩
  rw [hgrid]
  exact hpicture

end Display

end BoardConsole.Terminal
