import BoardConsole.Bytes

/-!
# Decimal numerals

Headers of files and reports of the cursor spell numbers in decimal, for a reader that takes the
digits together again.

- `Bytes.numeral`: a number in decimal.
- `Bytes.IsNumeral`: what that is, no matter how its digits are found.
- `Bytes.isNumeral_numeral`: **every number has a numeral**, and it is read as that number.
-/

namespace BoardConsole.Bytes

theorem toChar_ofChar {c : Char} (h : c.toNat < 0x100) : toChar (ofChar c) = c := by
  rw [toChar, ofChar, UInt8.toNat_ofNat', Nat.mod_eq_of_lt h, Char.ofNat_toNat]

/-! ## Digits -/

theorem isDigit_of_mem_toDigits {n : Nat} {c : Char} (h : c ∈ Nat.toDigits 10 n) :
    c.isDigit = true := Nat.isDigit_of_mem_toDigits (by decide) (by decide) h

theorem toNat_of_mem_toDigits {n : Nat} {c : Char} (h : c ∈ Nat.toDigits 10 n) :
    0x30 ≤ c.toNat ∧ c.toNat ≤ 0x39 := by
  have hdigit := isDigit_of_mem_toDigits h
  rw [Char.isDigit, Bool.and_eq_true, decide_eq_true_iff, decide_eq_true_iff] at hdigit
  exact ⟨UInt32.le_iff_toNat_le.mp hdigit.1, UInt32.le_iff_toNat_le.mp hdigit.2⟩

/-- Only zero begins with a zero: the first digit of a greater number is the first digit of its
tenth, or its only one. -/
theorem head?_toDigits {n : Nat} (h : n ≠ 0) : (Nat.toDigits 10 n).head? ≠ some '0' := by
  induction n using Nat.strongRecOn with
  | ind n ih =>
    by_cases hsmall : n < 10
    · have hdigits : ∀ d < 10, d ≠ 0 → some d.digitChar ≠ some '0' := by decide
      rw [Nat.toDigits_of_lt_base hsmall]
      exact hdigits n hsmall h
    · have hnonempty : Nat.toDigits 10 (n / 10) ≠ [] := Nat.toDigits_ne_nil
      obtain ⟨c, cs, hfront⟩ := List.exists_cons_of_ne_nil hnonempty
      have htenth := ih (n / 10) (by omega) (by omega)
      rw [Nat.toDigits_of_base_le (by decide) (by omega), hfront]
      rw [hfront] at htenth
      exact htenth

/-! ## Numerals -/

/-- A number in decimal. -/
def numeral (n : Nat) : Bytes := (Nat.toDigits 10 n).map ofChar

/-- The text is the number in decimal: digits that have its value, with a zero in front only if it
is the only one. -/
structure IsNumeral (text : Bytes) (n : Nat) : Prop where
  nonempty : text ≠ []
  digits : ∀ b ∈ text, 0x30 ≤ b ∧ b ≤ 0x39
  value : Nat.ofDigitChars 10 (text.map toChar) 0 = n
  leading : text.head? = some 0x30 → text = [0x30]

theorem map_toChar_numeral (n : Nat) : (numeral n).map toChar = Nat.toDigits 10 n := by
  rw [numeral, List.map_map]
  refine (List.map_congr_left fun c hc => toChar_ofChar ?_).trans (List.map_id _)
  obtain ⟨-, hhigh⟩ := toNat_of_mem_toDigits hc
  omega

theorem digit_of_mem_numeral {n : Nat} {b : UInt8} (h : b ∈ numeral n) : 0x30 ≤ b ∧ b ≤ 0x39 := by
  obtain ⟨c, hc, rfl⟩ := List.mem_map.mp h
  obtain ⟨hlow, hhigh⟩ := toNat_of_mem_toDigits hc
  have hcode : (ofChar c).toNat = c.toNat := by
    rw [ofChar, UInt8.toNat_ofNat']
    exact Nat.mod_eq_of_lt (by omega)
  rw [UInt8.le_iff_toNat_le, UInt8.le_iff_toNat_le, hcode]
  exact ⟨hlow, hhigh⟩

theorem isNumeral_numeral (n : Nat) : IsNumeral (numeral n) n where
  nonempty := mt List.map_eq_nil_iff.mp Nat.toDigits_ne_nil
  digits _ := digit_of_mem_numeral
  value := by rw [map_toChar_numeral, Nat.ofDigitChars_toDigits (by decide) (by decide)]
  leading := by
    intro hzero
    have hhead : (Nat.toDigits 10 n).head? = some '0' := by
      rw [← map_toChar_numeral, List.head?_map, hzero]
      rfl
    by_cases hn : n = 0
    · subst hn
      rfl
    · exact absurd hhead (head?_toDigits hn)

end BoardConsole.Bytes
