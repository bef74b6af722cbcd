import BoardConsole.Terminal.Display

/-!
# The tokens of the target's stream

The interpreter reads its stream one byte at a time.  Read as a whole the stream is a sequence of
tokens, and what reaches the screen is what they do, one after another.

| token | spelling |
|-------|----------|
| control sequence | ESC `[`, digits and semicolons, and a final byte that is neither |
| reset | ESC `c` |
| literal | ESC and any other byte |
| control | one of the seven control characters from BEL to CR |
| text | any other byte but ESC |

- `tokens`: the tokens of a stream, found by looking ahead.
- `Reads`: a stream is the spelling of some tokens and of an incomplete one after them.
- `Token.params`: the parameters of a control sequence, by splitting its text.
- `Token.perform`: what a token does to all of a terminal but its parser.
- `Display.feedAll_tokens`: **the interpreter carries out the tokens of its stream**, and nothing
  else.
-/

namespace BoardConsole.Terminal

/-! ## Tokens -/

/-- A byte that the parameters of a control sequence are spelled with. -/
def isParameter (b : UInt8) : Bool := (0x30 ≤ b && b ≤ 0x39) || b == 0x3B

/-- A control character that does something by itself. -/
def isEffector (b : UInt8) : Bool := 0x07 ≤ b && b ≤ 0x0D

/-- One token of the target's stream. -/
inductive Token
  /-- A command and the text of its parameters. -/
  | sequence (params : Bytes) (final : UInt8)
  /-- Everything back to where it started. -/
  | reset
  /-- ESC and a byte, both as they are. -/
  | literal (b : UInt8)
  /-- A control character. -/
  | control (b : UInt8)
  /-- A character. -/
  | text (b : UInt8)
  deriving DecidableEq, Repr

namespace Token

/-- The bytes of a token. -/
def spelling : Token → Bytes
  | .sequence params final => 0x1B :: 0x5B :: (params ++ [final])
  | .reset => [0x1B, 0x63]
  | .literal b => [0x1B, b]
  | .control b => [b]
  | .text b => [b]

/-- The token is one of the grammar. -/
def Valid : Token → Prop
  | .sequence params final => (∀ b ∈ params, isParameter b) ∧ isParameter final = false
  | .reset => True
  | .literal b => b ≠ 0x5B ∧ b ≠ 0x63
  | .control b => isEffector b
  | .text b => isEffector b = false ∧ b ≠ 0x1B

instance : DecidablePred Valid
  | .sequence _ _ => inferInstanceAs (Decidable (_ ∧ _))
  | .reset => inferInstanceAs (Decidable True)
  | .literal _ => inferInstanceAs (Decidable (_ ∧ _))
  | .control _ => inferInstanceAs (Decidable (_ = true))
  | .text _ => inferInstanceAs (Decidable (_ ∧ _))

end Token

/-- The beginning of a token that is still to be completed, or nothing at all. -/
def Incomplete (tail : Bytes) : Prop :=
  tail = [] ∨ tail = [0x1B] ∨ ∃ params : Bytes, (∀ b ∈ params, isParameter b) ∧
    tail = 0x1B :: 0x5B :: params

/-- The stream is the spelling of some tokens and of an incomplete one after them. -/
def Reads (ts : List Token) (bs : Bytes) : Prop :=
  (∀ t ∈ ts, t.Valid) ∧ ∃ tail, Incomplete tail ∧ bs = ts.flatMap Token.spelling ++ tail

/-- The first token of a stream, and what comes after it. -/
def nextToken : Bytes → Option (Token × Bytes)
  | [] => none
  | b :: rest =>
    if b = 0x1B then
      match rest with
      | [] => none
      | c :: rest =>
        if c = 0x5B then
          match rest.dropWhile isParameter with
          | [] => none
          | final :: more => some (.sequence (rest.takeWhile isParameter) final, more)
        else some (if c = 0x63 then .reset else .literal c, rest)
    else some (if isEffector b then .control b else .text b, rest)

/-- A stream begins with a token or is an incomplete one. -/
theorem incomplete_or_spelling (bs : Bytes) :
    Incomplete bs ∨ ∃ (t : Token) (rest : Bytes), t.Valid ∧ bs = t.spelling ++ rest := by
  rcases bs with _ | ⟨b, rest⟩
  · exact .inl (.inl rfl)
  by_cases hesc : b = 0x1B
  · subst hesc
    rcases rest with _ | ⟨c, rest⟩
    · exact .inl (.inr (.inl rfl))
    by_cases hbracket : c = 0x5B
    · subst hbracket
      have hparams : ∀ b ∈ rest.takeWhile isParameter, isParameter b :=
        List.all_eq_true.mp List.all_takeWhile
      have hsplit := (List.takeWhile_append_dropWhile (p := isParameter) (l := rest)).symm
      cases hdrop : rest.dropWhile isParameter with
      | nil =>
        rw [hdrop, List.append_nil] at hsplit
        refine .inl (.inr (.inr ⟨rest, ?_, rfl⟩))
        rw [hsplit]
        exact hparams
      | cons final more =>
        have hfinal : isParameter final = false := by
          have := List.head_dropWhile_not isParameter (l := rest) (by rw [hdrop]; simp)
          simpa [hdrop] using this
        rw [hdrop] at hsplit
        refine .inr ⟨.sequence (rest.takeWhile isParameter) final, more, ⟨hparams, hfinal⟩, ?_⟩
        simpa [Token.spelling] using hsplit
    · by_cases hreset : c = 0x63
      · subst hreset
        exact .inr ⟨.reset, rest, trivial, rfl⟩
      · exact .inr ⟨.literal c, rest, ⟨hbracket, hreset⟩, rfl⟩
  · cases heffector : isEffector b with
    | true => exact .inr ⟨.control b, rest, heffector, rfl⟩
    | false => exact .inr ⟨.text b, rest, ⟨heffector, hesc⟩, rfl⟩

theorem nextToken_spelling {t : Token} (h : t.Valid) (rest : Bytes) :
    nextToken (t.spelling ++ rest) = some (t, rest) := by
  cases t with
  | sequence params final =>
    have htake : (params ++ final :: rest).takeWhile isParameter = params := by
      rw [List.takeWhile_append_of_pos h.1, List.takeWhile_cons_of_neg (by simp [h.2]),
        List.append_nil]
    have hdrop : (params ++ final :: rest).dropWhile isParameter = final :: rest := by
      rw [List.dropWhile_append_of_pos h.1, List.dropWhile_cons_of_neg (by simp [h.2])]
    simp [nextToken, Token.spelling, htake, hdrop]
  | reset => rfl
  | literal b => simp [nextToken, Token.spelling, h.1, h.2]
  | control b =>
    have hesc : b ≠ 0x1B := by
      rintro rfl
      exact Bool.noConfusion h
    have heffector : isEffector b = true := h
    simp [nextToken, Token.spelling, hesc, heffector]
  | text b => simp [nextToken, Token.spelling, h.1, h.2]

theorem nextToken_incomplete {tail : Bytes} (h : Incomplete tail) : nextToken tail = none := by
  rcases h with rfl | rfl | ⟨params, hparams, rfl⟩
  · rfl
  · rfl
  · have hdrop : (params ++ []).dropWhile isParameter = [] :=
      List.dropWhile_append_of_pos hparams
    rw [List.append_nil] at hdrop
    simp [nextToken, hdrop]

theorem nextToken_eq_some_iff {bs rest : Bytes} {t : Token} :
    nextToken bs = some (t, rest) ↔ t.Valid ∧ bs = t.spelling ++ rest := by
  constructor
  · intro h
    rcases incomplete_or_spelling bs with hbs | ⟨t', rest', hvalid, rfl⟩
    · rw [nextToken_incomplete hbs] at h
      cases h
    · rw [nextToken_spelling hvalid] at h
      cases h
      exact ⟨hvalid, rfl⟩
  · rintro ⟨hvalid, rfl⟩
    exact nextToken_spelling hvalid rest

theorem nextToken_eq_none_iff {bs : Bytes} : nextToken bs = none ↔ Incomplete bs := by
  refine ⟨fun h => ?_, nextToken_incomplete⟩
  rcases incomplete_or_spelling bs with hbs | ⟨t, rest, hvalid, rfl⟩
  · exact hbs
  · rw [nextToken_spelling hvalid] at h
    cases h

theorem length_lt_of_nextToken {bs rest : Bytes} {t : Token} (h : nextToken bs = some (t, rest)) :
    rest.length < bs.length := by
  obtain ⟨-, rfl⟩ := nextToken_eq_some_iff.mp h
  have hpos : 0 < t.spelling.length := by
    cases t <;> exact Nat.succ_pos _
  rw [List.length_append]
  omega

/-- The tokens of a stream, first to last. -/
def tokens (bs : Bytes) : List Token :=
  match _h : nextToken bs with
  | none => []
  | some (t, rest) => t :: tokens rest
termination_by bs.length
decreasing_by exact length_lt_of_nextToken ‹_›

theorem tokens_incomplete {tail : Bytes} (h : Incomplete tail) : tokens tail = [] := by
  rw [tokens]
  split
  · rfl
  · rename_i hsome
    rw [nextToken_incomplete h] at hsome
    cases hsome

theorem tokens_spelling {t : Token} (h : t.Valid) (rest : Bytes) :
    tokens (t.spelling ++ rest) = t :: tokens rest := by
  rw [tokens]
  split
  · rename_i hnone
    rw [nextToken_spelling h] at hnone
    cases hnone
  · rename_i hsome
    rw [nextToken_spelling h] at hsome
    cases hsome
    rfl

/-- **A stream can be read in one way**, and `tokens` reads it that way. -/
theorem tokens_eq_iff {bs : Bytes} {ts : List Token} : tokens bs = ts ↔ Reads ts bs := by
  constructor
  · rintro rfl
    fun_induction tokens bs with
    | case1 bs hnone => exact ⟨by simp, bs, nextToken_eq_none_iff.mp hnone, rfl⟩
    | case2 bs t rest hsome ih =>
      obtain ⟨hvalid, rfl⟩ := nextToken_eq_some_iff.mp hsome
      obtain ⟨hrest, tail, htail, hspelled⟩ := ih
      refine ⟨List.forall_mem_cons.mpr ⟨hvalid, hrest⟩, tail, htail, ?_⟩
      rw [List.flatMap_cons, List.append_assoc, ← hspelled]
  · rintro ⟨hvalid, tail, htail, rfl⟩
    induction ts with
    | nil => exact tokens_incomplete htail
    | cons t ts ih =>
      obtain ⟨ht, hrest⟩ := List.forall_mem_cons.mp hvalid
      rw [List.flatMap_cons, List.append_assoc, tokens_spelling ht, ih hrest]

/-! ## Parameters -/

namespace Token

/-- What a field of a parameter text stands for: nothing if it is empty, else its decimal value up
to the greatest of 32 bits. -/
def place (field : Bytes) : Option Nat :=
  if field = [] then none
  else some (min (Nat.ofDigitChars 10 (field.map Bytes.toChar) 0) 0xFFFFFFFF)

/-- The fields of a parameter text: the pieces between semicolons, without the last if it is
empty. -/
def fields (text : Bytes) : List Bytes :=
  let pieces := text.splitOn 0x3B
  if pieces.getLast? = some [] then pieces.dropLast else pieces

/-- The parameters that fields stand for.  Sixteen are kept and the others counted. -/
def paramsOf (fields : List Bytes) : Params where
  slots := (fields.map place).take 16
  dropped := fields.length - 16

/-- The parameters of a control sequence. -/
def params (text : Bytes) : Params := paramsOf (fields text)

/-- Digits only. -/
def IsDigits (field : Bytes) : Prop := ∀ b ∈ field, 0x30 ≤ b ∧ b ≤ 0x39

theorem IsDigits.beq_semicolon {field : Bytes} (h : IsDigits field) :
    ∀ b ∈ field, (b == 0x3B) = false := by
  intro b hb
  obtain ⟨-, hhigh⟩ := h b hb
  rw [beq_eq_false_iff_ne]
  rintro rfl
  exact absurd hhigh (by decide)

theorem fields_digits {field : Bytes} (h : IsDigits field) :
    fields field = if field = [] then [] else [field] := by
  have hpieces : field.splitOn 0x3B = [field] := List.splitOnP_eq_singleton h.beq_semicolon
  simp [fields, hpieces]

theorem fields_append_cons {field : Bytes} (h : IsDigits field) (text : Bytes) :
    fields (field ++ 0x3B :: text) = field :: fields text := by
  have hpieces : (field ++ 0x3B :: text).splitOn 0x3B = field :: text.splitOn 0x3B :=
    List.splitOnP_append_cons_of_forall_mem h.beq_semicolon 0x3B rfl text
  obtain ⟨piece, pieces, htext⟩ := List.exists_cons_of_ne_nil (List.splitOn_ne_nil 0x3B text)
  simp only [fields, hpieces, htext, List.getLast?_cons_cons, List.dropLast_cons_cons]
  split <;> rfl

theorem IsDigits.concat {field : Bytes} (h : IsDigits field) {b : UInt8}
    (hb : 0x30 ≤ b ∧ b ≤ 0x39) : IsDigits (field ++ [b]) :=
  List.forall_mem_append.mpr ⟨h, List.forall_mem_singleton.mpr hb⟩

/-! ### Read one byte at a time -/

/-- The parameters when some fields are complete and the digits of another have been read. -/
def held (done : List Bytes) (field : Bytes) : Params :=
  { paramsOf done with pending := place field }

theorem terminate_held (done : List Bytes) (field : Bytes) :
    (held done field).terminate = held (done ++ [field]) [] := by
  have hlength : (held done field).slots.length = min 16 done.length := by
    simp [held, paramsOf]
  have hdone : ((done ++ [field]).map place).length = done.length + 1 := by simp
  unfold Params.terminate
  rw [hlength]
  by_cases hfull : done.length < 16
  · have hslots : (done.map place).take 16 = done.map place :=
      List.take_of_length_le (by rw [List.length_map]; omega)
    have hslots' : ((done ++ [field]).map place).take 16 = (done ++ [field]).map place :=
      List.take_of_length_le (by omega)
    rw [if_pos (show min 16 done.length < Params.capacity from by rw [Params.capacity]; omega)]
    simp only [held, paramsOf, hslots, hslots', Params.mk.injEq]
    refine ⟨by simp, rfl, ?_⟩
    rw [List.length_append, List.length_singleton]
    omega
  · have hslots : ((done ++ [field]).map place).take 16 = (done.map place).take 16 := by
      rw [List.map_append, List.take_append_of_le_length (by rw [List.length_map]; omega)]
    rw [if_neg (show ¬ min 16 done.length < Params.capacity from by rw [Params.capacity]; omega)]
    simp only [held, paramsOf, hslots, Params.mk.injEq]
    refine ⟨trivial, rfl, ?_⟩
    rw [List.length_append, List.length_singleton]
    omega

theorem getD_place (field : Bytes) :
    (place field).getD 0 = min (Nat.ofDigitChars 10 (field.map Bytes.toChar) 0) 0xFFFFFFFF := by
  unfold place
  split
  · rename_i h
    subst h
    rfl
  · rfl

/-- A number that stops growing at the greatest value is the number it would have been, or that
value. -/
theorem pushDigit_held (done : List Bytes) (field : Bytes) (b : UInt8) :
    (held done field).pushDigit (b.toNat - 0x30) = held done (field ++ [b]) := by
  have hplace : place (field ++ [b]) = some (min
      (10 * Nat.ofDigitChars 10 (field.map Bytes.toChar) 0 + (b.toNat - 0x30)) 0xFFFFFFFF) := by
    rw [place, if_neg (by simp), List.map_append, Nat.ofDigitChars_append, List.map_singleton,
      Nat.ofDigitChars_cons, Nat.ofDigitChars_nil, Bytes.toNat_toChar]
    rfl
  simp only [held, Params.pushDigit, hplace, getD_place, Params.greatest]
  congr 2
  omega

/-- One byte of a parameter text. -/
def readByte (p : Params) (b : UInt8) : Params :=
  if b = 0x3B then p.terminate else p.pushDigit (b.toNat - 0x30)

/-- **A parameter text read byte by byte** is split into its fields. -/
theorem closeParams_foldl_readByte (done : List Bytes) {field text : Bytes}
    (hfield : IsDigits field) (htext : ∀ b ∈ text, isParameter b) :
    Interpreter.closeParams (text.foldl readByte (held done field))
      = paramsOf (done ++ fields (field ++ text)) := by
  induction text generalizing done field with
  | nil =>
    rw [List.append_nil, fields_digits hfield, List.foldl_nil, Interpreter.closeParams]
    by_cases hnil : field = []
    · subst hnil
      rw [if_neg (show ¬ (held done []).hasPending = true from Bool.false_ne_true), if_pos rfl,
        List.append_nil]
      rfl
    · have hpending : (held done field).hasPending = true := by
        simp [held, Params.hasPending, place, hnil]
      rw [if_pos hpending, if_neg hnil, terminate_held]
      rfl
  | cons b text ih =>
    obtain ⟨hb, hrest⟩ := List.forall_mem_cons.mp htext
    rw [List.foldl_cons, readByte]
    by_cases hsemicolon : b = 0x3B
    · subst hsemicolon
      rw [if_pos rfl, terminate_held, ih _ (fun _ h => absurd h List.not_mem_nil) hrest,
        fields_append_cons hfield, List.nil_append, List.append_assoc, List.singleton_append]
    · have hdigit : 0x30 ≤ b ∧ b ≤ 0x39 := by
        simpa [isParameter, hsemicolon] using hb
      rw [if_neg hsemicolon, pushDigit_held, ih _ (hfield.concat hdigit) hrest,
        List.append_assoc, List.singleton_append]

end Token

/-! ## What tokens do -/

/-- All of a terminal but its parser. -/
structure Picture where
  /-- The screen. -/
  grid : Grid
  /-- The colour chosen for characters. -/
  foreground : Color
  /-- The colour chosen behind them. -/
  background : Color
  /-- The saved cursor. -/
  saved : Nat × Nat
  deriving DecidableEq, Repr

/-- All of a terminal but its parser. -/
def Display.picture (d : Display) : Picture :=
  ⟨d.grid, d.interpreter.foreground, d.interpreter.background, d.interpreter.saved⟩

/-- A control character: the bell, back, tab stop, down, up, clear, and the start of the line. -/
def Grid.control (g : Grid) (b : UInt8) : Grid :=
  match b with
  | 0x07 => { g with bells := g.bells + 1 }
  | 0x08 => g.moveCursor g.row (g.col - 1)
  | 0x09 => g.moveCursor g.row ((g.col / 8 + 1) * 8)
  | 0x0A => if g.row + 1 < g.rows then g.moveCursor (g.row + 1) g.col else g.scrollUp 1
  | 0x0B => g.moveCursor (g.row - 1) g.col
  | 0x0C => (g.eraseDisplay .all).moveCursor 0 0
  | 0x0D => g.moveCursor g.row 0
  | _ => g

namespace Picture

/-- A command with parameters, in which the places that are absent get their defaults. -/
def command (p : Picture) (params : Params) (command : Char) : Picture × Bytes :=
  let it : Interpreter :=
    { params := params.fillDefaults (Interpreter.defaults command)
      foreground := p.foreground
      background := p.background
      saved := p.saved }
  let step := it.execute p.grid.viewport command
  (⟨p.grid.applyAll step.actions, step.next.foreground, step.next.background, step.next.saved⟩,
    step.reply)

/-- What a token does, and what the terminal answers. -/
def perform (p : Picture) : Token → Picture × Bytes
  | .sequence params final => p.command (Token.params params) (Bytes.toChar final)
  | .reset =>
    let g := (p.grid.disable .all).setColors .standard .standard
    (⟨(g.eraseDisplay .all).moveCursor 0 0, .standard, .standard, p.saved⟩, [])
  | .literal b => ({ p with grid := (p.grid.writeChar '\x1b').writeChar (Bytes.toChar b) }, [])
  | .control b => ({ p with grid := p.grid.control b }, [])
  | .text b => ({ p with grid := p.grid.writeChar (Bytes.toChar b) }, [])

/-- What tokens do, first to last, and all that the terminal answers. -/
def performAll (p : Picture) : List Token → Picture × Bytes
  | [] => (p, [])
  | t :: ts =>
    (((p.perform t).1.performAll ts).1, (p.perform t).2 ++ ((p.perform t).1.performAll ts).2)

end Picture

/-! ## The interpreter carries them out -/

theorem isEffector_iff {b : UInt8} :
    isEffector b ↔ b ∈ [0x07, 0x08, 0x09, 0x0A, 0x0B, 0x0C, 0x0D] := by
  simp only [isEffector, Bool.and_eq_true, decide_eq_true_eq, List.mem_cons, List.not_mem_nil,
    or_false, UInt8.le_iff_toNat_le, ← UInt8.toNat_inj]
  simp
  omega

/-- The edge keeps the cursor in the same place. -/
theorem Grid.moveCursor_congr {g : Grid} {row row' col col' : Nat}
    (hrow : min row (g.rows - 1) = min row' (g.rows - 1))
    (hcol : min col (g.cols - 1) = min col' (g.cols - 1)) :
    g.moveCursor row col = g.moveCursor row' col' := by
  simp only [moveCursor, hrow, hcol]

theorem Grid.applyAll_control (g : Grid) (it : Interpreter) {b : UInt8} (hb : isEffector b) :
    (it.ground g.viewport b).next = it ∧
      g.applyAll (it.ground g.viewport b).actions = g.control b ∧
      (it.ground g.viewport b).reply = [] := by
  have hcases := isEffector_iff.mp hb
  simp only [List.mem_cons, List.not_mem_nil, or_false] at hcases
  rcases hcases with rfl | rfl | rfl | rfl | rfl | rfl | rfl
  · exact ⟨rfl, rfl, rfl⟩
  · refine ⟨rfl, moveCursor_congr rfl ?_, rfl⟩
    simp only [offset, viewport]
    omega
  · refine ⟨rfl, moveCursor_congr rfl ?_, rfl⟩
    simp only [viewport]
    omega
  · refine ⟨rfl, ?_, rfl⟩
    show g.applyAll [if g.row + 1 < g.rows then .move (g.row + 1) g.col else .scroll 1]
      = if g.row + 1 < g.rows then g.moveCursor (g.row + 1) g.col else g.scrollUp 1
    split <;> rfl
  · refine ⟨rfl, moveCursor_congr ?_ rfl, rfl⟩
    simp only [offset, viewport]
    omega
  · exact ⟨rfl, rfl, rfl⟩
  · exact ⟨rfl, rfl, rfl⟩

theorem Interpreter.ground_text (it : Interpreter) (v : Viewport) {b : UInt8}
    (heffector : isEffector b = false) (hesc : b ≠ 0x1B) :
    it.ground v b = ⟨it, [.write (Bytes.toChar b)], []⟩ := by
  unfold ground
  split
  case h_8 => exact absurd rfl hesc
  case h_9 => rfl
  all_goals exact Bool.noConfusion heffector

namespace Interpreter

theorem mode_render (it : Interpreter) (change : Rendition) :
    (it.render change).1.mode = it.mode := by
  cases change <;> rfl

theorem mode_renderAll (it : Interpreter) (values : List Nat) :
    (it.renderAll values).1.mode = it.mode := by
  induction values generalizing it with
  | nil => rfl
  | cons value values ih =>
    rw [renderAll]
    split
    · exact ih it
    · exact (ih _).trans (mode_render it _)

/-- A command leaves the parser where it is. -/
theorem mode_execute (it : Interpreter) (v : Viewport) (command : Char) :
    (it.execute v command).next.mode = it.mode := by
  unfold execute
  dsimp only
  split
  case h_10 => split <;> rfl
  case h_11 => split <;> rfl
  case h_18 => exact mode_renderAll it _
  case h_19 => split <;> rfl
  all_goals rfl

end Interpreter

theorem Interpreter.step_parameter (it : Interpreter) (v : Viewport) (hmode : it.mode = .params)
    {b : UInt8} (hb : isParameter b) :
    it.step v b = ⟨{ it with params := Token.readByte it.params b }, [], []⟩ := by
  obtain ⟨mode, params, foreground, background, saved⟩ := it
  obtain rfl : mode = .params := hmode
  by_cases hsemicolon : b = 0x3B
  · subst hsemicolon
    rfl
  · have hdigit : 0x30 ≤ b ∧ b ≤ 0x39 := by
      simpa [isParameter, hsemicolon] using hb
    rw [Token.readByte, if_neg hsemicolon]
    exact if_pos hdigit

theorem Interpreter.step_final (it : Interpreter) (v : Viewport) (hmode : it.mode = .params)
    {b : UInt8} (hb : isParameter b = false) : it.step v b = it.finish v b := by
  have hsemicolon : b ≠ 0x3B := by
    rintro rfl
    exact Bool.noConfusion hb
  have hdigit : ¬ (0x30 ≤ b ∧ b ≤ 0x39) := by
    simpa [isParameter, hsemicolon] using hb
  rw [step, hmode]
  dsimp only
  rw [if_neg hdigit, if_neg hsemicolon]

/-- In the middle of a control sequence nothing happens but that parameters are read. -/
theorem Display.feedAll_parameters (d : Display) (hmode : d.interpreter.mode = .params)
    {text : Bytes} (htext : ∀ b ∈ text, isParameter b) :
    d.feedAll text = (⟨{ d.interpreter with
      params := text.foldl Token.readByte d.interpreter.params }, d.grid⟩, []) := by
  induction text generalizing d with
  | nil => rfl
  | cons b text ih =>
    obtain ⟨hb, hrest⟩ := List.forall_mem_cons.mp htext
    have hfeed : d.feed b
        = (⟨{ d.interpreter with params := Token.readByte d.interpreter.params b }, d.grid⟩,
          []) := by
      rw [feed, Interpreter.step_parameter _ _ hmode hb]
      rfl
    exact feedAll_cons_of hfeed (ih _ hmode hrest)

namespace Display

variable {d : Display} (hmode : d.interpreter.mode = .ground)
include hmode

theorem feed_ground (b : UInt8) :
    d.feed b = (⟨(d.interpreter.ground d.grid.viewport b).next,
      d.grid.applyAll (d.interpreter.ground d.grid.viewport b).actions⟩,
      (d.interpreter.ground d.grid.viewport b).reply) := by
  rw [feed, Interpreter.step, hmode]

theorem feed_escape :
    d.feed 0x1B = (⟨{ d.interpreter with mode := .escape }, d.grid⟩, []) :=
  feed_ground hmode 0x1B

/-- The beginning of a control sequence is read and nothing else. -/
theorem feedAll_opening {text : Bytes} (htext : ∀ b ∈ text, isParameter b) :
    d.feedAll (0x1B :: 0x5B :: text)
      = (⟨{ d.interpreter with mode := .params, params := text.foldl Token.readByte {} }, d.grid⟩,
        []) := by
  have hbracket : (⟨{ d.interpreter with mode := .escape }, d.grid⟩ : Display).feed 0x5B
      = (⟨{ d.interpreter with mode := .params, params := {} }, d.grid⟩, []) := rfl
  exact feedAll_cons_of (feed_escape hmode)
    (feedAll_cons_of hbracket (feedAll_parameters _ rfl htext))

/-- An incomplete token has no effect. -/
theorem feedAll_incomplete {tail : Bytes} (h : Incomplete tail) :
    (d.feedAll tail).1.picture = d.picture ∧ (d.feedAll tail).2 = [] := by
  rcases h with rfl | rfl | ⟨text, htext, rfl⟩
  · exact ⟨rfl, rfl⟩
  · rw [feedAll_cons, feed_escape hmode]
    exact ⟨rfl, rfl⟩
  · rw [feedAll_opening hmode htext]
    exact ⟨rfl, rfl⟩

omit hmode in
theorem feed_final (d : Display) (hmode : d.interpreter.mode = .params) {text : Bytes}
    (hparams : d.interpreter.params = text.foldl Token.readByte {})
    (htext : ∀ b ∈ text, isParameter b) {final : UInt8} (hfinal : isParameter final = false) :
    (d.feed final).1.interpreter.mode = .ground ∧
      ((d.feed final).1.picture, (d.feed final).2)
        = d.picture.command (Token.params text) (Bytes.toChar final) := by
  have hclose : Interpreter.closeParams d.interpreter.params = Token.params text := by
    rw [hparams]
    exact Token.closeParams_foldl_readByte [] (fun _ h => absurd h List.not_mem_nil) htext
  rw [feed, Interpreter.step_final _ _ hmode hfinal, Interpreter.finish, hclose]
  exact ⟨Interpreter.mode_execute _ _ _, rfl⟩

/-- A token does what it is meant to do, and the next one can follow. -/
theorem feedAll_spelling {t : Token} (h : t.Valid) :
    (d.feedAll t.spelling).1.interpreter.mode = .ground ∧
      ((d.feedAll t.spelling).1.picture, (d.feedAll t.spelling).2) = d.picture.perform t := by
  cases t with
  | sequence text final =>
    obtain ⟨htext, hfinal⟩ := h
    have hopening := feedAll_opening hmode htext
    have hfinish := feed_final
      ⟨{ d.interpreter with mode := .params, params := text.foldl Token.readByte {} }, d.grid⟩
      rfl rfl htext hfinal
    rw [Token.spelling, ← List.cons_append, ← List.cons_append, feedAll_append, hopening,
      feedAll_cons_of rfl (feedAll_nil _), List.append_nil, List.nil_append]
    exact hfinish
  | reset =>
    have hreset : (⟨{ d.interpreter with mode := .escape }, d.grid⟩ : Display).feedAll [0x63] = _ :=
      rfl
    rw [Token.spelling, feedAll_cons_of (feed_escape hmode) hreset]
    exact ⟨rfl, rfl⟩
  | literal b =>
    have hstep : Interpreter.escape { d.interpreter with mode := .escape } b
        = ⟨{ d.interpreter with mode := .ground },
          [.write '\x1b', .write (Bytes.toChar b)], []⟩ := by
      unfold Interpreter.escape
      split
      · exact absurd rfl h.1
      · exact absurd rfl h.2
      · rfl
    have hfeed : (⟨{ d.interpreter with mode := .escape }, d.grid⟩ : Display).feed b
        = (⟨{ d.interpreter with mode := .ground },
          (d.grid.writeChar '\x1b').writeChar (Bytes.toChar b)⟩, []) := by
      rw [feed, Interpreter.step, hstep]
      rfl
    rw [Token.spelling, feedAll_cons_of (feed_escape hmode) (feedAll_cons_of hfeed (feedAll_nil _))]
    exact ⟨rfl, rfl⟩
  | control b =>
    obtain ⟨hnext, hgrid, hreply⟩ := d.grid.applyAll_control d.interpreter h
    have hfeed : d.feed b = (⟨d.interpreter, d.grid.control b⟩, []) := by
      rw [feed_ground hmode, hnext, hgrid, hreply]
    rw [Token.spelling, feedAll_cons_of hfeed (feedAll_nil _)]
    exact ⟨hmode, rfl⟩
  | text b =>
    have hfeed : d.feed b = (⟨d.interpreter, d.grid.writeChar (Bytes.toChar b)⟩, []) := by
      rw [feed_ground hmode, Interpreter.ground_text _ _ h.1 h.2]
      rfl
    rw [Token.spelling, feedAll_cons_of hfeed (feedAll_nil _)]
    exact ⟨hmode, rfl⟩

/-- What the tokens of a stream do is what its bytes do, by induction on the tokens. -/
theorem feedAll_of_reads {ts : List Token} {bs : Bytes} (h : Reads ts bs) :
    ((d.feedAll bs).1.picture, (d.feedAll bs).2) = d.picture.performAll ts := by
  obtain ⟨hvalid, tail, htail, rfl⟩ := h
  induction ts generalizing d with
  | nil =>
    obtain ⟨hpicture, hreply⟩ := feedAll_incomplete hmode htail
    exact Prod.ext hpicture hreply
  | cons t ts ih =>
    obtain ⟨ht, hrest⟩ := List.forall_mem_cons.mp hvalid
    obtain ⟨hground, heffect⟩ := feedAll_spelling hmode ht
    have hafter := ih hground hrest
    rw [List.flatMap_cons, List.append_assoc, feedAll_append, Picture.performAll, ← heffect,
      ← hafter]

end Display

/-- **The interpreter carries out the tokens of its stream**, and there is one way to read it. -/
theorem feedAll_tokens (d : Display) (hmode : d.interpreter.mode = .ground) (bs : Bytes) :
    Reads (tokens bs) bs ∧ (∀ ts, Reads ts bs → ts = tokens bs) ∧
      ((d.feedAll bs).1.picture, (d.feedAll bs).2) = d.picture.performAll (tokens bs) := by
  have hreads : Reads (tokens bs) bs := tokens_eq_iff.mp rfl
  exact ⟨hreads, fun ts h => (tokens_eq_iff.mpr h).symm, Display.feedAll_of_reads hmode hreads⟩

/-- Parameters left over from before, a place that is absent, a number beyond 32 bits, ESC as the
final byte of a sequence, and a sequence that is cut off. -/
theorem feedAll_tokens_leftover :
    let leftover : Params := { slots := [some 7, none], pending := some 3, dropped := 2 }
    let d : Display := ⟨{ params := leftover }, .blank 3 10⟩
    let bs : Bytes := [0x78, 0x1B, 0x5B, 0x3B, 0x34, 0x32, 0x39, 0x34, 0x39, 0x36, 0x37, 0x32, 0x39,
      0x39, 0x48, 0x1B, 0x79, 0x0D, 0x1B, 0x5B, 0x31, 0x1B, 0x7A, 0x1B, 0x5B, 0x32]
    let ts : List Token := [.text 0x78, .sequence [0x3B, 0x34, 0x32, 0x39, 0x34, 0x39, 0x36, 0x37,
      0x32, 0x39, 0x39] 0x48, .literal 0x79, .control 0x0D, .sequence [0x31] 0x1B, .text 0x7A]
    ((d.feedAll bs).1.picture, (d.feedAll bs).2) = d.picture.performAll ts ∧
      (d.picture.performAll ts).1.grid.rowText 1
        = ['z', ' ', ' ', ' ', ' ', ' ', ' ', ' ', ' ', ' '] := by
  intro leftover d bs ts
  obtain ⟨-, hunique, heffect⟩ := feedAll_tokens d rfl bs
  have hreads : Reads ts bs :=
    ⟨by decide +kernel, [0x1B, 0x5B, 0x32], .inr (.inr ⟨[0x32], by decide +kernel, rfl⟩), rfl⟩
  rw [← hunique ts hreads] at heffect
  exact ⟨heffect, by decide⟩

end BoardConsole.Terminal
