import BoardConsole.Proofs.Operands

/-!
# Sequences of renditions

A rendition sequence lists the numbers of changes: attributes on and off, colours, and everything
back to the defaults.  Attributes are kept by the pen of the grid only, but the colours by the
interpreter too, from where the one that is not changed comes back into the pen.

- `rendition`: the sequence of some fields.
- `Token.given_joined`: its numbers are those of its fields, one by one.
- `Picture.render`, `Picture.select`: one change, and one number.
- `Picture.command_rendition`: the numbers of a sequence are selected one after another.
- `Display.rendition_composes`: **a sequence of fields is the sequences of its fields**.
-/

namespace BoardConsole.Terminal

/-- The bytes of a rendition sequence with some fields. -/
def rendition (fields : List Bytes) : Bytes := controlSequence ([0x3B].intercalate fields) 'm'

/-! ## Fields that are put together -/

namespace Token

theorem IsDigits.isParameter {field : Bytes} (h : IsDigits field) : ∀ b ∈ field, isParameter b := by
  intro b hb
  obtain ⟨hlow, hhigh⟩ := h b hb
  simp only [Terminal.isParameter, hlow, hhigh, decide_true, Bool.and_self, Bool.true_or]

theorem IsDigits.semicolon_notMem {field : Bytes} (h : IsDigits field) : 0x3B ∉ field := by
  intro hb
  exact absurd (h 0x3B hb).2 (by decide)

variable {fields : List Bytes} (h : ∀ field ∈ fields, IsDigits field)
include h

theorem isParameter_joined : ∀ b ∈ [0x3B].intercalate fields, isParameter b := by
  induction fields with
  | nil => exact fun b hb => absurd hb List.not_mem_nil
  | cons field fields ih =>
    obtain ⟨hfield, hrest⟩ := List.forall_mem_cons.mp h
    by_cases hlast : fields = []
    · subst hlast
      rw [List.intercalate_singleton]
      exact hfield.isParameter
    · have hseparated : ∀ b ∈ field ++ [0x3B], isParameter b :=
        List.forall_mem_append.mpr ⟨hfield.isParameter, List.forall_mem_singleton.mpr rfl⟩
      rw [List.intercalate_cons_of_ne_nil hlast]
      exact List.forall_mem_append.mpr ⟨hseparated, ih hrest⟩

/-- Taken apart again they are the same fields, but for an empty one at the end. -/
theorem fields_joined :
    Token.fields ([0x3B].intercalate fields)
      = if fields.getLast? = some [] then fields.dropLast else fields := by
  by_cases hnone : fields = []
  · subst hnone
    rfl
  · have hpieces : ([0x3B].intercalate fields).splitOn 0x3B = fields :=
      List.splitOn_intercalate 0x3B (fun field hf => (h field hf).semicolon_notMem) hnone
    rw [Token.fields, hpieces]

/-- **Sixteen fields are read as the numbers that are in them**, in their order. -/
theorem given_joined (hroom : fields.length ≤ Params.capacity) :
    (params ([0x3B].intercalate fields)).given = fields.filterMap place := by
  have hslots : (params ([0x3B].intercalate fields)).slots
      = (Token.fields ([0x3B].intercalate fields)).map place := by
    refine List.take_of_length_le ?_
    rw [List.length_map, fields_joined h]
    rw [Params.capacity] at hroom
    split
    · rw [List.length_dropLast]
      omega
    · exact hroom
  rw [Params.given, hslots, List.filterMap_map, fields_joined h]
  split
  · rename_i hempty
    obtain ⟨before, rfl⟩ := List.getLast?_eq_some_iff.mp hempty
    rw [List.dropLast_concat, List.filterMap_append]
    exact (List.append_nil _).symm
  · rfl

end Token

/-! ## Changes -/

namespace Picture

/-- One change of the rendition: what a terminal keeps twice is changed in both places. -/
def render (p : Picture) : Rendition → Picture
  | .reset =>
    { p with
      grid := (p.grid.disable .all).setColors .standard .standard
      foreground := .standard
      background := .standard }
  | .enable attributes => { p with grid := p.grid.enable attributes }
  | .disable attributes => { p with grid := p.grid.disable attributes }
  | .foreground color =>
    { p with grid := p.grid.setColors color p.background, foreground := color }
  | .background color =>
    { p with grid := p.grid.setColors p.foreground color, background := color }

/-- The change of a number, if there is one. -/
def select (p : Picture) (value : Nat) : Picture :=
  match Rendition.decode? value with
  | none => p
  | some change => p.render change

/-- A change is one of the pen and of the chosen colours. -/
theorem grid_select (p : Picture) (value : Nat) :
    (p.select value).grid = { p.grid with pen := (p.select value).grid.pen } ∧
      (p.select value).saved = p.saved := by
  rw [select]
  cases Rendition.decode? value with
  | none => exact ⟨rfl, rfl⟩
  | some change => cases change <;> exact ⟨rfl, rfl⟩

theorem grid_foldl_select (p : Picture) (values : List Nat) :
    (values.foldl select p).grid = { p.grid with pen := (values.foldl select p).grid.pen } ∧
      (values.foldl select p).saved = p.saved := by
  induction values generalizing p with
  | nil => exact ⟨rfl, rfl⟩
  | cons value values ih =>
    obtain ⟨hgrid, hsaved⟩ := ih (p.select value)
    obtain ⟨hfirst, hkept⟩ := p.grid_select value
    rw [List.foldl_cons]
    constructor
    · rw [hgrid, hfirst]
    · exact hsaved.trans hkept

end Picture

/-- What an interpreter and its grid make of a change. -/
theorem Interpreter.render_picture (it : Interpreter) (g : Grid) (change : Rendition) :
    (⟨g.applyAll (it.render change).2, (it.render change).1.foreground,
        (it.render change).1.background, (it.render change).1.saved⟩ : Picture)
      = Picture.render ⟨g, it.foreground, it.background, it.saved⟩ change := by
  cases change <;> rfl

/-- Changes are made one after another, by induction on their numbers. -/
theorem Interpreter.renderAll_picture (it : Interpreter) (g : Grid) (values : List Nat) :
    (⟨g.applyAll (it.renderAll values).2, (it.renderAll values).1.foreground,
        (it.renderAll values).1.background, (it.renderAll values).1.saved⟩ : Picture)
      = values.foldl Picture.select ⟨g, it.foreground, it.background, it.saved⟩ := by
  induction values generalizing it g with
  | nil => rfl
  | cons value values ih =>
    rw [renderAll, List.foldl_cons, Picture.select]
    cases Rendition.decode? value with
    | none => exact ih it g
    | some change =>
      dsimp only
      rw [Grid.applyAll_append, ih, ← render_picture]

/-- **A rendition sequence selects its numbers one after another.** -/
theorem Picture.command_rendition (p : Picture) (params : Params)
    (hroom : params.slots.length ≤ Params.capacity) :
    p.command params 'm' = (params.given.foldl select p, []) := by
  have hfill : Params.fill params.slots [] = params.slots := by
    cases params.slots <;> rfl
  have hgiven : (params.fillDefaults []).given = params.given := by
    rw [Params.given, Params.fillDefaults, hfill, List.take_of_length_le hroom, Params.given]
  let it : Interpreter :=
    { params := params.fillDefaults []
      foreground := p.foreground
      background := p.background
      saved := p.saved }
  have hexecute : it.execute p.grid.viewport 'm'
      = ⟨(it.renderAll params.given).1, (it.renderAll params.given).2, []⟩ := by
    rw [← hgiven]
    rfl
  show (let step := it.execute p.grid.viewport 'm'
    ((⟨p.grid.applyAll step.actions, step.next.foreground, step.next.background,
      step.next.saved⟩ : Picture), step.reply)) = _
  rw [hexecute]
  exact congrArg (·, []) (it.renderAll_picture p.grid params.given)

namespace Display

section Fields

variable {d : Display} (hmode : d.interpreter.mode = .ground) {fields : List Bytes}
  (hfields : ∀ field ∈ fields, Token.IsDigits field)
include hmode hfields

/-- What a sequence of fields does. -/
theorem feedAll_rendition (hroom : fields.length ≤ Params.capacity) :
    (d.feedAll (rendition fields)).1.interpreter.mode = .ground ∧
      (d.feedAll (rendition fields)).1.picture
        = (fields.filterMap Token.place).foldl Picture.select d.picture ∧
      (d.feedAll (rendition fields)).2 = [] := by
  have hslots : (Token.params ([0x3B].intercalate fields)).slots.length ≤ Params.capacity :=
    List.length_take_le ..
  obtain ⟨hground, heffect⟩ := feedAll_command hmode (Token.isParameter_joined hfields)
    (show Interpreter.isCommand 'm' from rfl)
  rw [Picture.command_rendition _ _ hslots, Token.given_joined hfields hroom] at heffect
  exact ⟨hground, congrArg Prod.fst heffect, congrArg Prod.snd heffect⟩

/-- What the sequences of fields do, by induction on them: one field selects its number, if it has
one. -/
theorem feedAll_renditions :
    let bs := fields.flatMap fun field => rendition [field]
    (d.feedAll bs).1.interpreter.mode = .ground ∧
      (d.feedAll bs).1.picture
        = (fields.filterMap Token.place).foldl Picture.select d.picture ∧
      (d.feedAll bs).2 = [] := by
  intro bs
  induction fields generalizing d with
  | nil => exact ⟨hmode, rfl, rfl⟩
  | cons field fields ih =>
    obtain ⟨hfield, hrest⟩ := List.forall_mem_cons.mp hfields
    have hone : [field].length ≤ Params.capacity := by
      rw [List.length_singleton, Params.capacity]
      omega
    obtain ⟨hground, hpicture, hsilent⟩ :=
      feedAll_rendition hmode (List.forall_mem_singleton.mpr hfield) hone
    obtain ⟨hground', hpicture', hsilent'⟩ := ih hground hrest
    have happend : bs = rendition [field] ++ fields.flatMap fun field => rendition [field] :=
      List.flatMap_cons
    have hnumbers : (field :: fields).filterMap Token.place
        = [field].filterMap Token.place ++ fields.filterMap Token.place := by
      rw [← List.filterMap_append]
      rfl
    rw [happend, feedAll_append, hnumbers, List.foldl_append, ← hpicture]
    exact ⟨hground', hpicture', by rw [hsilent, hsilent']; rfl⟩

/-- **Rendition sequences compose**: at most sixteen fields, each of them empty or a number of any
length, do in one sequence what they do in sequences of their own, to the grid, to the colours
chosen and to the saved cursor.  Of the grid they change the pen at most, and there is no answer. -/
theorem rendition_composes (hroom : fields.length ≤ Params.capacity) :
    let whole := d.feedAll (rendition fields)
    let each := d.feedAll (fields.flatMap fun field => rendition [field])
    whole.1.interpreter.mode = .ground ∧ each.1.interpreter.mode = .ground ∧
    whole.1.picture = each.1.picture ∧ whole.2 = [] ∧ each.2 = [] ∧
    whole.1.grid = { d.grid with pen := whole.1.grid.pen } ∧
    whole.1.interpreter.saved = d.interpreter.saved := by
  intro whole each
  obtain ⟨hground, hwhole, hsilent⟩ := feedAll_rendition hmode hfields hroom
  obtain ⟨hground', heach, hsilent'⟩ := feedAll_renditions hmode hfields
  obtain ⟨hgrid, hsaved⟩ :=
    d.picture.grid_foldl_select (fields.filterMap Token.place)
  rw [← hwhole] at hgrid hsaved
  exact ⟨hground, hground', hwhole.trans heach.symm, hsilent, hsilent', hgrid, hsaved⟩

end Fields

/-- With a reset in the middle, a number that stands for nothing, and empty fields in the middle and
at the end: what comes out is reverse video on blue, in the sequence and one by one. -/
theorem rendition_composes_reset :
    let drawn := [.setColors .green .standard, .enable .dim, .write 'x']
    let d : Display := ⟨{ foreground := .green }, (Grid.blank 2 3).applyAll drawn⟩
    let fields : List Bytes := [[0x31], [], [0x33, 0x31], [0x30, 0x30], [0x34, 0x34],
      [0x39, 0x39], [0x37], []]
    let whole := d.feedAll (rendition fields)
    let each := d.feedAll (fields.flatMap fun field => rendition [field])
    let pen : Pen := { attributes := .reverse, background := .blue }
    whole.1.picture = each.1.picture ∧ whole.1.grid = { d.grid with pen } ∧
      (whole.1.interpreter.foreground, whole.1.interpreter.background) = (.standard, .blue) := by
  intro drawn d fields whole each pen
  have hmode : d.interpreter.mode = .ground := rfl
  have hfields : ∀ field ∈ fields, Token.IsDigits field := by
    simp only [Token.IsDigits]
    decide +kernel
  have hroom : fields.length ≤ Params.capacity := by decide
  obtain ⟨-, -, hsame, -, -, hgrid, -⟩ := rendition_composes hmode hfields hroom
  have hpen : whole.1.grid.pen = pen := by decide +kernel
  refine ⟨hsame, ?_, by decide +kernel⟩
  rw [← hpen]
  exact hgrid

end Display

end BoardConsole.Terminal
