import BoardConsole.Proofs.Streaming

/-!
# Rows of memory

A row of memory is a line of text in columns: the address in eight digits, sixteen fields of two
digits in two groups, and in brackets the bytes as characters, with a blank for each that is not
printable.  The columns are read back one after another, each with the rest of the line after it.

- `Row.read?`: a line read as a row, if it is one to the last character.
- `Row.read?_dumpRow`: **a row that was written is read back**, with its address, its bytes and
  their characters.
- `Session.read_shows_memory`: the rows of a read command are the memory from each address on.
-/

namespace BoardConsole

/-! ## Numbers at the start of a text -/

namespace Hex

/-- So many digits at the start of a text, read onto a value so far, and the text after them. -/
def readOnto : Nat → Nat → List Char → Option (Nat × List Char)
  | value, 0, cs => some (value, cs)
  | value, n + 1, c :: cs => (digit? c).bind fun d => readOnto (16 * value + d) n cs
  | _, _ + 1, [] => none

/-- One digit more. -/
theorem readOnto_succ {n value total d : Nat} {cs rest : List Char} {c : Char}
    (h : readOnto value n cs = some (total, c :: rest)) (hc : digit? c = some d) :
    readOnto value (n + 1) cs = some (16 * total + d, rest) := by
  induction n generalizing value cs with
  | zero =>
    obtain ⟨rfl, rfl⟩ : value = total ∧ cs = c :: rest := by simpa [readOnto] using h
    simp [readOnto, hc]
  | succ n ih =>
    cases cs with
    | nil => cases h
    | cons c' cs =>
      obtain ⟨d', hd', hrest⟩ := Option.bind_eq_some_iff.mp h
      rw [readOnto, hd']
      exact ih hrest

/-- Digits of fixed width are read back, whatever text comes after them. -/
theorem readOnto_digits (value n : Nat) (rest : List Char) :
    readOnto 0 n (digits value n ++ rest) = some (value % 16 ^ n, rest) := by
  induction n generalizing value rest with
  | zero => rw [Nat.pow_zero, Nat.mod_one]; rfl
  | succ n ih =>
    have hlow : value % 16 < 16 := Nat.mod_lt _ (by decide)
    have hvalue : 16 * (value / 16 % 16 ^ n) + value % 16 = value % 16 ^ (n + 1) := by
      rw [Nat.pow_succ', Nat.mod_mul]
      omega
    rw [digits_succ, List.append_assoc, ← hvalue]
    exact readOnto_succ (ih (value / 16) _) (digit?_digit_char _ hlow)

end Hex

namespace Debugger

/-! ## Rows read -/

/-- The text after a mark that it starts with. -/
def textAfter? (mark cs : List Char) : Option (List Char) :=
  if mark.isPrefixOf cs then some (cs.drop mark.length) else none

@[simp] theorem textAfter?_append (mark rest : List Char) :
    textAfter? mark (mark ++ rest) = some rest := by
  have hprefix : mark.isPrefixOf (mark ++ rest) = true :=
    List.isPrefixOf_iff_prefix.mpr (List.prefix_append ..)
  rw [textAfter?, if_pos hprefix, List.drop_left]

/-- So many fields at the start of a text, each of two digits and a blank, and the text after
them. -/
def readFields? : Nat → List Char → Option (Bytes × List Char)
  | 0, cs => some ([], cs)
  | n + 1, cs => do
    let (value, cs) ← Hex.readOnto 0 2 cs
    let cs ← textAfter? [' '] cs
    let (bs, cs) ← readFields? n cs
    some (UInt8.ofNat value :: bs, cs)

/-- A byte as a field. -/
def field (b : UInt8) : List Char := Hex.digits b.toNat 2 ++ [' ']

/-- Fields are read back, whatever text comes after them. -/
theorem readFields?_field (bs : Bytes) (rest : List Char) :
    readFields? bs.length (bs.flatMap field ++ rest) = some (bs, rest) := by
  induction bs with
  | nil => rfl
  | cons b bs ih =>
    have hvalue : b.toNat % 16 ^ 2 = b.toNat := Nat.mod_eq_of_lt b.toNat_lt
    have hfirst : Hex.readOnto 0 2 ((b :: bs).flatMap field ++ rest)
        = some (b.toNat, [' '] ++ (bs.flatMap field ++ rest)) := by
      rw [List.flatMap_cons, field, List.append_assoc, List.append_assoc, Hex.readOnto_digits,
        hvalue]
    simp only [List.length_cons, readFields?, hfirst, Option.bind_eq_bind, Option.bind_some,
      textAfter?_append, ih, UInt8.ofNat_toNat]

/-- A row of memory as it is read off a line. -/
structure Row where
  /-- The address it is labelled with. -/
  address : Nat
  /-- The bytes of its fields. -/
  bytes : Bytes
  /-- The characters in its brackets. -/
  text : List Char
  deriving DecidableEq, Repr

namespace Row

/-- A line read as a row: eight digits, two blanks, eight fields, a blank, eight fields, and
sixteen characters in brackets. -/
def read? (line : String) : Option Row := do
  let (address, cs) ← Hex.readOnto 0 8 line.toList
  let cs ← textAfter? [' ', ' '] cs
  let (low, cs) ← readFields? 8 cs
  let cs ← textAfter? [' '] cs
  let (high, cs) ← readFields? 8 cs
  let cs ← textAfter? ['['] cs
  if cs.drop 16 = [']'] then some ⟨address, low ++ high, cs.take 16⟩ else none

/-- The row of some bytes at an address: a byte from 32 to 126 is shown as its character. -/
def ofBytes (address : Nat) (bs : Bytes) : Row :=
  ⟨address, bs, bs.map fun b => if 32 ≤ b ∧ b ≤ 126 then Char.ofNat b.toNat else ' '⟩

theorem rowText_eq (address : Nat) (bs : Bytes) : rowText bs = (ofBytes address bs).text := by
  refine List.map_congr_left fun b _ => ?_
  have hiff : Bytes.isPrintable b = true ↔ 32 ≤ b ∧ b ≤ 126 := by
    simp only [Bytes.isPrintable, Bool.and_eq_true, decide_eq_true_eq, UInt8.le_iff_toNat_le,
      UInt8.lt_iff_toNat_lt]
    exact and_congr_right fun _ => Nat.lt_succ_iff
  by_cases h : Bytes.isPrintable b = true
  · rw [if_pos h, if_pos (hiff.mp h)]
    rfl
  · rw [if_neg h, if_neg fun hb => h (hiff.mpr hb)]

/-- **A row that was written is read back.** -/
theorem read?_dumpRow {address : Nat} {bs : Bytes} (haddress : address < 0x100000000)
    (hlength : bs.length = 16) : read? (dumpRow address bs) = some (ofBytes address bs) := by
  have hlow : (bs.take 8).length = 8 := by rw [List.length_take, hlength]; rfl
  have hhigh : (bs.drop 8).length = 8 := by rw [List.length_drop, hlength]
  have htext : (rowText bs).length = 16 := by rw [rowText, List.length_map, hlength]
  have hline : (dumpRow address bs).toList = Hex.digits address 8 ++ ([' ', ' ']
      ++ ((bs.take 8).flatMap field ++ ([' '] ++ ((bs.drop 8).flatMap field
        ++ (['['] ++ (rowText bs ++ [']'])))))) := by
    rw [dumpRow, String.toList_ofList]
    simp only [List.append_assoc]
    rfl
  have hfirst := readFields?_field (bs.take 8)
  have hsecond := readFields?_field (bs.drop 8)
  rw [hlow] at hfirst
  rw [hhigh] at hsecond
  have hwidth : address % 16 ^ 8 = address := Nat.mod_eq_of_lt haddress
  simp only [read?, hline, Hex.readOnto_digits, hwidth, Option.bind_eq_bind, Option.bind_some,
    textAfter?_append, hfirst, hsecond]
  rw [List.drop_left' htext, List.take_left' htext, if_pos rfl, List.take_append_drop,
    rowText_eq address]
  rfl

end Row

/-! ## Memory shown -/

namespace Session

variable {name : String}

/-- **Reading shows memory.**  On a board without answers, each argument that is not empty is told
about in its turn: that it is no address, or in four rows what the board loads at the addresses from
its own on, which go around at the end of memory.  Each of these rows can be read back from its
line.  Nothing in memory changes, and no answer is left. -/
theorem read_shows_memory (loader : Loader) (s : Session Monitor)
    (hadvance : s.link.advance = .linear) (hreplies : s.link.replies = [])
    (hname : name.toLower = "read") (args : List String) :
    let after := s.dispatch loader (name :: args)
    let byteAt address place := s.link.load ((address + place) % 0x1000000)
    after.transcript.toList
        = s.transcript.toList ++ (args.filter (· ≠ "")).flatMap (readout byteAt) ∧
      (∀ token ∈ args, ∀ address, numberBelow? 0x1000000 token = some address → ∀ r < 4,
        let bytes := (List.range 16).map fun i => byteAt address (16 * r + i)
        .line (dumpRow (address + 16 * r) bytes) ∈ readout byteAt token ∧
        Row.read? (dumpRow (address + 16 * r) bytes)
          = some (Row.ofBytes (address + 16 * r) bytes)) ∧
      after.link.ram = s.link.ram ∧ after.link.remap = s.link.remap ∧
      after.link.chip = s.link.chip ∧ after.link.replies = [] := by
  intro after byteAt
  obtain ⟨m', sent, hrun, hsame, hempty⟩ := run_read loader hreplies args
  obtain ⟨hboard, htranscript⟩ := @dispatch_run_monitor loader _ _ s
    (Command.parse_read hname args)
  rw [hrun] at hboard htranscript
  rw [hadvance] at htranscript
  have hafter : after.link = m' := hboard
  refine ⟨htranscript, fun token _ address htoken r hr => ⟨?_, Row.read?_dumpRow ?_ ?_⟩, ?_⟩
  · rw [readout, htoken]
    exact List.mem_map.mpr ⟨r, List.mem_range.mpr hr, rfl⟩
  · have hlt : address < 0x1000000 := lt_of_numberBelow? htoken
    omega
  · rw [List.length_map, List.length_range]
  · rw [hafter]
    exact ⟨hsame.ram, hsame.remap, hsame.chip, hempty⟩

/-- Rows over the end of memory, after an argument that is no address and an empty one. -/
theorem read_shows_memory_wrapped :
    let s : Session Monitor :=
      ⟨{ ram := ({} : Std.TreeMap Nat UInt8).insert 0 0x41, digits := 7 }, ⟨0⟩, #[], .quiet⟩
    let after := s.dispatch (.fixed []) ["READ", "bogus", "", "0xFFFFFF"]
    s.link.advance = .linear ∧ s.link.replies = [] ∧ "READ".toLower = "read" ∧
      after.transcript.toList.take 2 = [.line "Bad address: bogus",
        .line "00FFFFFF  00 41 00 00 00 00 00 00  00 00 00 00 00 00 00 00 [ A              ]"] ∧
      after.link.replies = [] := by
  intro s after
  have hname : "READ".toLower = "read" := by decide +kernel
  obtain ⟨htranscript, -, -, -, -, hempty⟩ :=
    s.read_shows_memory (.fixed []) rfl rfl hname ["bogus", "", "0xFFFFFF"]
  refine ⟨rfl, rfl, hname, ?_, hempty⟩
  show (s.dispatch _ _).transcript.toList.take 2 = _
  rw [htranscript]
  decide +kernel

end Session

end Debugger

end BoardConsole
