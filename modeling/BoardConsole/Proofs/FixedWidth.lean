import BoardConsole.Proofs.Literals
import BoardConsole.Proofs.Wire
import Mathlib.Tactic.IntervalCases

/-!
# Numbers of fixed width

A number is sent as its low digits, and the board shifts digits into a word that drops what comes
out at its left end.  Neither the digits that are cut off at the sender nor the ones that the word
still held matter for the digits that were sent, as far as the word holds so many.

- `Hex.spells_digits`: the digits that are sent spell the number modulo the width.
- `Hex.encode_eq_upper`: they are the number under a mask, filled up with zeros.
- `Monitor.receiveAll_shiftInto`: the board shifts them into a word.
- `Hex.encode_received`: **what is read agrees with what was sent**, for every width.
-/

namespace BoardConsole

namespace Hex

/-! ## What is sent -/

theorem length_digits (value n : Nat) : (digits value n).length = n := by
  induction n generalizing value with
  | zero => rfl
  | succ n ih => rw [digits_succ, List.length_append, ih, List.length_singleton]

/-- The digits in upper case. -/
theorem getElem?_upperCase : ∀ d < 16, "0123456789ABCDEF".toList[d]? = some (digit d) := by decide

theorem mem_digits {value n : Nat} {c : Char} (h : c ∈ digits value n) :
    c ∈ "0123456789ABCDEF".toList := by
  induction n generalizing value with
  | zero => cases h
  | succ n ih =>
    rw [digits_succ, List.mem_append, List.mem_singleton] at h
    rcases h with h | rfl
    · exact ih h
    · exact List.mem_of_getElem? (getElem?_upperCase _ (Nat.mod_lt _ (by decide)))

/-- The values of so many digits of a number make it up modulo the width. -/
theorem forall₂_digits (value n : Nat) :
    ∃ ds, List.Forall₂ (Numeral.IsDigit 16) (digits value n) ds ∧
      value % 16 ^ n = Nat.ofDigits 16 ds.reverse := by
  induction n generalizing value with
  | zero => exact ⟨[], .nil, by rw [Nat.pow_zero, Nat.mod_one]; rfl⟩
  | succ n ih =>
    obtain ⟨ds, hds, hvalue⟩ := ih (value / 16)
    have hlow : value % 16 < 16 := Nat.mod_lt _ (by decide)
    have hlast : Numeral.IsDigit 16 (digit (value % 16)) (value % 16) :=
      ⟨hlow, .inl (getElem?_upperCase _ hlow)⟩
    refine ⟨ds ++ [value % 16], ?_, ?_⟩
    · rw [digits_succ]
      exact List.rel_append hds (.cons hlast .nil)
    · rw [List.reverse_append, List.reverse_singleton, List.singleton_append, Nat.ofDigits_cons,
        ← hvalue, Nat.pow_succ', Nat.mod_mul]

/-- So many digits of a number spell it modulo the width. -/
theorem spells_digits (value : Nat) {n : Nat} (hn : 0 < n) :
    Numeral.Spells 16 (digits value n) (value % 16 ^ n) := by
  refine ⟨fun h => ?_, forall₂_digits value n⟩
  have hlength := length_digits value n
  rw [h, List.length_nil] at hlength
  omega

/-! ## By mask and filling -/

/-- The bits of a word that so many digits show. -/
def mask (width : Nat) : UInt32 :=
  if 8 ≤ width then 0xFFFFFFFF else (1 <<< UInt32.ofNat (4 * width)) - 1

theorem toNat_mask (width : Nat) : (mask width).toNat = 2 ^ (4 * min width 8) - 1 := by
  unfold mask
  rcases Nat.lt_or_ge width 8 with hwidth | hwidth
  · rw [if_neg (Nat.not_le.mpr hwidth), Nat.min_eq_left (Nat.le_of_lt hwidth)]
    interval_cases width <;> rfl
  · rw [if_pos hwidth, Nat.min_eq_right hwidth]
    rfl

/-- To mask a word is to take it modulo the width. -/
theorem toNat_and_mask (value : UInt32) (width : Nat) :
    (value &&& mask width).toNat = value.toNat % 16 ^ width := by
  rw [UInt32.toNat_and, toNat_mask, Nat.and_two_pow_sub_one_eq_mod, Nat.pow_mul]
  show value.toNat % 16 ^ min width 8 = _
  rcases Nat.le_total width 8 with hwidth | hwidth
  · rw [Nat.min_eq_left hwidth]
  · have hle : 16 ^ 8 ≤ 16 ^ width := Nat.pow_le_pow_right (by decide) hwidth
    have hvalue : value.toNat < 16 ^ 8 := value.toNat_lt
    rw [Nat.min_eq_right hwidth, Nat.mod_eq_of_lt hvalue,
      Nat.mod_eq_of_lt (Nat.lt_of_lt_of_le hvalue hle)]

theorem digits_zero_left (n : Nat) : digits 0 n = List.replicate n '0' := by
  induction n with
  | zero => rfl
  | succ n ih =>
    rw [digits_succ, Nat.zero_div, ih, List.replicate_succ']
    rfl

theorem toUpper_digitChar : ∀ d < 16, d.digitChar.toUpper = digit d := by decide

/-- A number filled up with zeros in front shows all its digits, if it is below the width. -/
theorem padded_eq {value n : Nat} (h : value < 16 ^ (n + 1)) :
    List.replicate (n + 1 - (Nat.toDigits 16 value).length) '0'
        ++ (Nat.toDigits 16 value).map Char.toUpper
      = digits value (n + 1) := by
  induction n generalizing value with
  | zero =>
    rw [Nat.pow_succ, Nat.pow_zero, Nat.one_mul] at h
    rw [Nat.toDigits_of_lt_base h, List.map_singleton, toUpper_digitChar _ h, digits_succ,
      Nat.mod_eq_of_lt h]
    rfl
  | succ n ih =>
    rcases Nat.lt_or_ge value 16 with hsmall | hlarge
    · rw [Nat.toDigits_of_lt_base hsmall, List.map_singleton, toUpper_digitChar _ hsmall,
        digits_succ, Nat.mod_eq_of_lt hsmall, Nat.div_eq_of_lt hsmall, digits_zero_left]
      rfl
    · have hvalue : value / 16 < 16 ^ (n + 1) :=
        Nat.div_lt_of_lt_mul (Nat.pow_succ' ▸ h)
      rw [Nat.toDigits_of_base_le (by decide) hlarge, List.length_append, List.length_singleton,
        Nat.add_sub_add_right, List.map_append, List.map_singleton,
        toUpper_digitChar _ (Nat.mod_lt _ (by decide)), ← List.append_assoc, ih hvalue,
        ← digits_succ]

theorem toList_upper (value width : Nat) :
    (upper value width).toList
      = List.replicate (width - (Nat.toDigits 16 value).length) '0'
        ++ (Nat.toDigits 16 value).map Char.toUpper := by
  simp only [upper, lower, String.toList_ofList, List.map_append, List.map_replicate]
  rfl

/-- **By mask and filling**: the number under the mask, in upper case and filled up with zeros. -/
theorem encode_eq_upper (value : UInt32) {width : Nat} (hwidth : 0 < width) :
    encode value.toNat width = (upper (value &&& mask width).toNat width).toList := by
  obtain ⟨n, rfl⟩ : ∃ n, width = n + 1 := ⟨width - 1, by omega⟩
  have hlt : value.toNat % 16 ^ (n + 1) < 16 ^ (n + 1) := Nat.mod_lt _ (Nat.pow_pos (by decide))
  rw [toList_upper, toNat_and_mask, padded_eq hlt, digits_mod]
  rfl

/-! ## By shifting -/

/-- Digits shifted into a word at its right end. -/
def shiftInto (word : UInt32) (cs : List Char) : UInt32 :=
  cs.foldl (fun word c => word <<< 4 ||| UInt32.ofNat ((digit? c).getD 0)) word

end Hex

namespace Monitor

theorem pushDigit_eq (m : Monitor) {d : Nat} (hd : d < 16) :
    m.pushDigit d
      = { m with digits := (Hex.shiftInto (UInt32.ofNat m.digits) [Hex.digit d]).toNat } := by
  have hdrop : (m.digits % 2 ^ 32) <<< 4 % 2 ^ 32 = (m.digits % 2 ^ 28) <<< 4 := by
    rw [Nat.shiftLeft_eq, Nat.shiftLeft_eq]
    omega
  have hword : (Hex.shiftInto (UInt32.ofNat m.digits) [Hex.digit d]).toNat
      = (16 * m.digits + d) % 0x100000000 := by
    rw [Hex.shiftInto, List.foldl_cons, List.foldl_nil, Hex.digit?_digit_char d hd,
      Option.getD_some, UInt32.toNat_or, UInt32.toNat_shiftLeft, UInt32.toNat_ofNat',
      UInt32.toNat_ofNat', Nat.mod_eq_of_lt (Nat.lt_trans hd (by decide))]
    show (m.digits % 2 ^ 32) <<< 4 % 2 ^ 32 ||| d = _
    rw [hdrop, ← Nat.shiftLeft_add_eq_or_of_lt hd, Nat.shiftLeft_eq]
    omega
  rw [hword]
  rfl

/-- The board shifts digits into a word, and does nothing else with them. -/
theorem receiveAll_shiftInto (m : Monitor) (value n : Nat) :
    m.receiveAll (Utf8.encode (Hex.digits value (n + 1)))
      = { m with
          digits := (Hex.shiftInto (UInt32.ofNat m.digits) (Hex.digits value (n + 1))).toNat } := by
  induction n generalizing value with
  | zero =>
    have hlow : value % 16 < 16 := Nat.mod_lt _ (by decide)
    exact (m.receiveAll_digit hlow).trans (m.pushDigit_eq hlow)
  | succ n ih =>
    have hlow : value % 16 < 16 := Nat.mod_lt _ (by decide)
    rw [Hex.digits_succ, Utf8.encode_append, receiveAll_append, ih, receiveAll_digit _ hlow,
      pushDigit_eq _ hlow]
    simp only [UInt32.ofNat_toNat, Hex.shiftInto, List.foldl_append]

end Monitor

/-! ## Both ends -/

/-- **What is read agrees with what was sent**, for every word and every width, whatever digits the
board still held.

* The text has as many digits as the width says, all in upper case, and they spell the word modulo
  the width.  It is the word under a mask, filled up with zeros.
* The board shifts the text into a word of its own and does nothing else.  The byte after it, if it
  is no digit, acts on that word and leaves none behind.
* The word that is read agrees with the one that was sent in all the digits of the text that the
  board can hold. -/
theorem Hex.encode_received (value : UInt32) {width : Nat} (hwidth : 0 < width) (m : Monitor)
    {b : UInt8} (hb : digit? (Bytes.toChar b) = none) :
    ((encode value.toNat width).length = width ∧
      (∀ c ∈ encode value.toNat width, c ∈ "0123456789ABCDEF".toList) ∧
      Numeral.Spells 16 (encode value.toNat width) (value.toNat % 16 ^ width) ∧
      encode value.toNat width = (upper (value &&& mask width).toNat width).toList) ∧
    ∃ number : UInt32, number = shiftInto (UInt32.ofNat m.digits) (encode value.toNat width) ∧
      m.receiveAll (Utf8.encode (encode value.toNat width)) = { m with digits := number.toNat } ∧
      m.receiveAll (Utf8.encode (encode value.toNat width) ++ [b])
        = m.clearDigits.mark number.toNat b ∧
      number.toNat % 16 ^ min width 8 = value.toNat % 16 ^ min width 8 := by
  have htext : encode value.toNat width = digits value.toNat width := if_neg (Nat.ne_of_gt hwidth)
  refine ⟨⟨?_, ?_, ?_, encode_eq_upper value hwidth⟩, _, rfl, ?_⟩
  · rw [htext, length_digits]
  · intro c hc
    rw [htext] at hc
    exact mem_digits hc
  · rw [htext]
    exact spells_digits value.toNat hwidth
  · obtain ⟨n, rfl⟩ : ∃ n, width = n + 1 := ⟨width - 1, by omega⟩
    obtain ⟨d, hd, hmod⟩ := m.receiveAll_digits value.toNat (n + 1)
    have hreceived := m.receiveAll_shiftInto value.toNat n
    have hnumber : d = (shiftInto (UInt32.ofNat m.digits) (digits value.toNat (n + 1))).toNat :=
      congrArg Monitor.digits (hd.symm.trans hreceived)
    rw [htext]
    refine ⟨hreceived, ?_, hnumber ▸ hmod⟩
    rw [Monitor.receiveAll_append, hreceived]
    exact Monitor.receive_mark _ hb

/-- Three digits were left behind.  Ten digits shift them out, zeros in front and all.  Two digits
come after them, and only the low byte is the one that was sent. -/
theorem Hex.encode_received_leftovers :
    ({ digits := 0x777 } : Monitor).receiveAll (Utf8.encode (encode 0x89ABCDEF 10) ++ [0x3A])
      = ({ digits := 0x777 } : Monitor).clearDigits.mark 0x89ABCDEF 0x3A ∧
    ({ digits := 0x777 } : Monitor).receiveAll (Utf8.encode (encode 0x89ABCDEF 2) ++ [0x3A])
      = ({ digits := 0x777 } : Monitor).clearDigits.mark 0x777EF 0x3A := by
  constructor
  · obtain ⟨-, _, rfl, -, hread, -⟩ := encode_received 0x89ABCDEF (show 0 < 10 by decide)
      { digits := 0x777 } (show digit? (Bytes.toChar 0x3A) = none by decide)
    exact hread
  · obtain ⟨-, _, rfl, -, hread, -⟩ := encode_received 0x89ABCDEF (show 0 < 2 by decide)
      { digits := 0x777 } (show digit? (Bytes.toChar 0x3A) = none by decide)
    exact hread

end BoardConsole
