import BoardConsole.Numeral.Literal
import Mathlib.Data.List.Forall2
import Mathlib.Data.Nat.Digits.Defs
import Mathlib.Tactic.Ring

/-!
# The grammar of numbers

A number is typed as digits after a prefix that says their radix, or in decimal.  The reader finds
the prefix first and then takes the digits together; what it accepts is exactly what the grammar
says, with the value of the numeral.

- `Numeral.Spells`: digits of a radix, and the number that they spell.
- `Numeral.Literal`: **the grammar**, with the number that each text stands for.
- `Numeral.parse?_eq_some_iff`: the reader accepts what the grammar says, if the number fits.
- `Numeral.parseInWords?`: the reader by way of 64-bit words, with a sign and a limit of their own.
- `Numeral.parse?_grammar`: **the two readers agree with the grammar**, on every text.
-/

namespace BoardConsole.Numeral

/-! ## Digits -/

/-- A character is the digit of a value in a radix, in either case. -/
def IsDigit (radix : Nat) (c : Char) (d : Nat) : Prop :=
  d < radix ∧ ("0123456789ABCDEF".toList[d]? = some c ∨ "0123456789abcdef".toList[d]? = some c)

/-- The table of the digits by the codes of the characters. -/
theorem isDigit_iff {radix : Nat} (hradix : radix ≤ 16) {c : Char} {d : Nat} :
    IsDigit radix c d ↔ d < radix ∧
      (c.toNat = (if d < 10 then 48 + d else 55 + d) ∨
        c.toNat = (if d < 10 then 48 + d else 87 + d)) := by
  have hcode : ∀ {table : List Char} {n : Nat}, table[d]?.map Char.toNat = some n →
      (table[d]? = some c ↔ c.toNat = n) := by
    intro table n hn
    obtain ⟨c', hc', rfl⟩ := Option.map_eq_some_iff.mp hn
    rw [hc', Option.some.injEq, eq_comm, Char.toNat_inj]
  have hupper : ∀ d < 16, "0123456789ABCDEF".toList[d]?.map Char.toNat
      = some (if d < 10 then 48 + d else 55 + d) := by decide
  have hlower : ∀ d < 16, "0123456789abcdef".toList[d]?.map Char.toNat
      = some (if d < 10 then 48 + d else 87 + d) := by decide
  refine and_congr_right fun hd => ?_
  rw [hcode (hupper d (by omega)), hcode (hlower d (by omega))]

/-- The reader of digits goes by the table. -/
theorem digit?_eq_some_iff {radix : Nat} (hradix : radix ≤ 16) {c : Char} {d : Nat} :
    digit? radix c = some d ↔ IsDigit radix c d := by
  rw [isDigit_iff hradix]
  unfold digit?
  grind

/-! ## Numerals -/

/-- A text spells a number in a radix: it has digits, most significant first, and the number is the
sum of what each of them is worth at its place. -/
def Spells (radix : Nat) (text : List Char) (v : Nat) : Prop :=
  text ≠ [] ∧ ∃ ds, List.Forall₂ (IsDigit radix) text ds ∧ v = Nat.ofDigits radix ds.reverse

theorem valueOnto_eq_some_iff {radix : Nat} (hradix : radix ≤ 16) {value v : Nat}
    {cs : List Char} :
    valueOnto radix value cs = some v ↔ ∃ ds, List.Forall₂ (IsDigit radix) cs ds ∧
      v = value * radix ^ cs.length + Nat.ofDigits radix ds.reverse := by
  induction cs generalizing value with
  | nil => simp [valueOnto, eq_comm]
  | cons c cs ih =>
    rw [valueOnto]
    cases hc : digit? radix c with
    | none =>
      constructor
      · intro h
        cases h
      · rintro ⟨_, hds, -⟩
        cases hds with
        | cons hd _ =>
          rw [(digit?_eq_some_iff hradix).mpr hd] at hc
          cases hc
    | some d =>
      have hvalue : ∀ ds : List Nat, ds.length = cs.length →
          (value * radix + d) * radix ^ cs.length + Nat.ofDigits radix ds.reverse
            = value * radix ^ (c :: cs).length + Nat.ofDigits radix (d :: ds).reverse := by
        intro ds hlength
        rw [List.reverse_cons, Nat.ofDigits_append, Nat.ofDigits_singleton, List.length_reverse,
          hlength, List.length_cons]
        ring
      show valueOnto radix (value * radix + d) cs = some v ↔ _
      rw [ih]
      constructor
      · rintro ⟨ds, hds, rfl⟩
        exact ⟨d :: ds, .cons ((digit?_eq_some_iff hradix).mp hc) hds, hvalue ds hds.length_eq.symm⟩
      · rintro ⟨_, hds, rfl⟩
        cases hds with
        | cons hd hds =>
          rw [(digit?_eq_some_iff hradix).mpr hd, Option.some.injEq] at hc
          subst hc
          exact ⟨_, hds, (hvalue _ hds.length_eq.symm).symm⟩

/-- The reader of numerals accepts what spells a number, with that number. -/
theorem value?_eq_some_iff {radix : Nat} (hradix : radix ≤ 16) {cs : List Char} {v : Nat} :
    value? radix cs = some v ↔ Spells radix cs v := by
  cases cs with
  | nil =>
    constructor
    · intro h
      cases h
    · exact fun h => absurd rfl h.1
  | cons c cs =>
    show valueOnto radix 0 (c :: cs) = some v ↔ _
    rw [valueOnto_eq_some_iff hradix, Spells]
    simp

/-! ## The grammar -/

/-- The prefixes that say a radix. -/
def prefixes : List (List Char × Nat) :=
  [(['0', 'x'], 16), (['0', 'X'], 16), (['0', 'o'], 8), (['0', 'O'], 8), (['0', 'b'], 2),
    (['0', 'B'], 2), (['0'], 8)]

/-- A text stands for a number. -/
inductive Literal : List Char → Nat → Prop
  /-- Digits of the radix that a prefix says. -/
  | marked {front digits : List Char} {radix v : Nat} (hfront : (front, radix) ∈ prefixes)
      (hdigits : Spells radix digits v) : Literal (front ++ digits) v
  /-- Decimal digits, the first of them a zero only if it is the only one. -/
  | decimal {digits : List Char} {v : Nat} (hzero : digits = ['0'] ∨ digits.head? ≠ some '0')
      (hdigits : Spells 10 digits v) : Literal digits v

theorem radix_le (text : List Char) : (radix text).1 ≤ 16 := by
  unfold radix
  split <;> simp

/-- Octal digits go on with no other prefix than a zero. -/
theorem radix_octal {c : Char} (cs : List Char) {d : Nat} (h : IsDigit 8 c d) :
    radix ('0' :: c :: cs) = (8, c :: cs) := by
  obtain ⟨hd, hcode⟩ := (isDigit_iff (by decide)).mp h
  have hlow : c.toNat < 'B'.toNat := by
    show c.toNat < 66
    grind
  unfold radix
  split <;> simp_all

/-- A prefix is found in front of the digits of its radix. -/
theorem radix_marked {front digits : List Char} {base v : Nat}
    (hfront : (front, base) ∈ prefixes) (h : Spells base digits v) :
    radix (front ++ digits) = (base, digits) := by
  simp only [prefixes, List.mem_cons, List.not_mem_nil, or_false, Prod.mk.injEq] at hfront
  obtain ⟨rfl, rfl⟩ | ⟨rfl, rfl⟩ | ⟨rfl, rfl⟩ | ⟨rfl, rfl⟩ | ⟨rfl, rfl⟩ | ⟨rfl, rfl⟩ | ⟨rfl, rfl⟩ :=
    hfront
  iterate 6 rfl
  obtain ⟨hne, ds, hds, -⟩ := h
  cases hds with
  | nil => exact absurd rfl hne
  | cons hd _ => exact radix_octal _ hd

theorem radix_decimal {digits : List Char} (h : digits = ['0'] ∨ digits.head? ≠ some '0') :
    radix digits = (10, digits) := by
  unfold radix
  split <;> simp_all

/-- What the digits behind the prefix spell is what the text stands for. -/
theorem literal_of_radix {text : List Char} {v : Nat}
    (h : Spells (radix text).1 (radix text).2 v) : Literal text v := by
  have hmarked : ∀ (front : List Char) {digits : List Char} {base : Nat},
      (front, base) ∈ prefixes → radix text = (base, digits) → text = front ++ digits →
        Literal text v := by
    intro front digits base hfront hradix htext
    rw [hradix] at h
    rw [htext]
    exact .marked hfront h
  fun_cases radix text with
  | case1 => exact hmarked ['0', 'x'] (by decide) rfl rfl
  | case2 => exact hmarked ['0', 'X'] (by decide) rfl rfl
  | case3 => exact hmarked ['0', 'o'] (by decide) rfl rfl
  | case4 => exact hmarked ['0', 'O'] (by decide) rfl rfl
  | case5 => exact hmarked ['0', 'b'] (by decide) rfl rfl
  | case6 => exact hmarked ['0', 'B'] (by decide) rfl rfl
  | case7 c cs hx hX ho hO hb hB =>
    have hradix : radix ('0' :: c :: cs) = (8, c :: cs) := by
      unfold radix
      split <;> simp_all
    exact hmarked ['0'] (by decide) hradix rfl
  | case8 _ _ _ _ _ _ _ hother =>
    have hzero : text = ['0'] ∨ text.head? ≠ some '0' := by
      rcases text with _ | ⟨first, _ | ⟨c, cs⟩⟩
      · exact .inr (by simp)
      · by_cases hfirst : first = '0'
        · exact .inl (by rw [hfirst])
        · exact .inr (by simpa using hfirst)
      · refine .inr fun hfirst => ?_
        rw [List.head?_cons, Option.some.injEq] at hfirst
        exact hother c cs (by rw [hfirst])
    rw [radix_decimal hzero] at h
    exact .decimal hzero h

theorem value?_radix_eq_some_iff {text : List Char} {v : Nat} :
    value? (radix text).1 (radix text).2 = some v ↔ Literal text v := by
  rw [value?_eq_some_iff (radix_le text)]
  constructor
  · exact literal_of_radix
  · intro h
    cases h with
    | marked hfront hdigits =>
      rw [radix_marked hfront hdigits]
      exact hdigits
    | decimal hzero hdigits =>
      rw [radix_decimal hzero]
      exact hdigits

/-- **What is accepted**: what the grammar says, if the number fits. -/
theorem parse?_eq_some_iff {text : List Char} {bits v : Nat} :
    parse? text bits = some v ↔ Literal text v ∧ v < 2 ^ min bits 32 := by
  show (value? (radix text).1 (radix text).2).filter _ = some v ↔ _
  rw [Option.filter_eq_some_iff, value?_radix_eq_some_iff, decide_eq_true_iff, Nat.one_shiftLeft]

/-- A text stands for one number only. -/
theorem Literal.unique {text : List Char} {v w : Nat} (hv : Literal text v) (hw : Literal text w) :
    v = w :=
  Option.some.inj ((value?_radix_eq_some_iff.mpr hv).symm.trans (value?_radix_eq_some_iff.mpr hw))

/-! ## Characters of a literal -/

theorem IsDigit.isAlphanum {radix d : Nat} {c : Char} (h : IsDigit radix c d) :
    c.isAlphanum = true := by
  have hupper : "0123456789ABCDEF".toList.all Char.isAlphanum = true := by decide
  have hlower : "0123456789abcdef".toList.all Char.isAlphanum = true := by decide
  rcases h.2 with hchar | hchar
  · exact List.all_eq_true.mp hupper c (List.mem_of_getElem? hchar)
  · exact List.all_eq_true.mp hlower c (List.mem_of_getElem? hchar)

theorem Spells.isAlphanum {radix v : Nat} {text : List Char} (h : Spells radix text v) :
    ∀ c ∈ text, c.isAlphanum = true := by
  obtain ⟨-, ds, hds, -⟩ := h
  induction hds with
  | nil => exact List.forall_mem_nil _
  | cons hd _ ih => exact List.forall_mem_cons.mpr ⟨hd.isAlphanum, ih⟩

/-- A literal is made of letters and digits. -/
theorem Literal.isAlphanum {text : List Char} {v : Nat} (h : Literal text v) :
    ∀ c ∈ text, c.isAlphanum = true := by
  have hprefixes : prefixes.all (·.1.all Char.isAlphanum) = true := by decide
  cases h with
  | marked hfront hdigits =>
    rw [List.forall_mem_append]
    exact ⟨List.all_eq_true.mp (List.all_eq_true.mp hprefixes _ hfront), hdigits.isAlphanum⟩
  | decimal _ hdigits => exact hdigits.isAlphanum

/-- Zeros in front of a numeral count for nothing. -/
theorem Spells.leadingZeros {radix v : Nat} {text : List Char} (hradix : 0 < radix)
    (h : Spells radix text v) (n : Nat) : Spells radix (List.replicate n '0' ++ text) v := by
  induction n with
  | zero => exact h
  | succ n ih =>
    obtain ⟨-, ds, hds, hv⟩ := ih
    refine ⟨List.cons_ne_nil _ _, 0 :: ds, .cons ⟨hradix, .inl rfl⟩ hds, ?_⟩
    rw [hv, List.reverse_cons, Nat.ofDigits_append, Nat.ofDigits_singleton, Nat.mul_zero,
      Nat.add_zero]

/-! ## By way of words -/

/-- A number that is below a limit read onto a value so far, as far as no value comes to the
limit. -/
def belowOnto (limit radix : Nat) : Nat → List Char → Option Nat
  | value, [] => some value
  | value, c :: cs =>
    match digit? radix c with
    | none => none
    | some d =>
      if value * radix + d < limit then belowOnto limit radix (value * radix + d) cs else none

/-- A word of 64 bits in a radix, which may have a plus sign in front of its digits. -/
def longWord? (radix : Nat) : List Char → Option Nat
  | [] => none
  | ['+'] => none
  | '+' :: cs => belowOnto (2 ^ 64) radix 0 cs
  | cs => belowOnto (2 ^ 64) radix 0 cs

/-- The number that digits of a radix spell, by way of a word of 64 bits: no sign is let through,
and the word has to fit the given count of bits and 32. -/
def numberInWords? (radix : Nat) (cs : List Char) (bits : Nat) : Option Nat :=
  if cs.isEmpty || cs.head? = some '+' || cs.head? = some '-' then none
  else do
    let value ← longWord? radix cs
    if bits < 32 ∧ 1 <<< bits ≤ value then none
    else if value < 2 ^ 32 then some value else none

/-- The number that a literal denotes, by way of a word of 64 bits. -/
def parseInWords? (text : List Char) (bits : Nat) : Option Nat :=
  numberInWords? (radix text).1 (radix text).2 bits

/-- A value only grows by the digits that follow. -/
theorem le_of_valueOnto {radix value v : Nat} (hradix : 0 < radix) {cs : List Char}
    (h : valueOnto radix value cs = some v) : value ≤ v := by
  induction cs generalizing value with
  | nil => exact Nat.le_of_eq (Option.some.inj h)
  | cons c cs ih =>
    rw [valueOnto] at h
    cases hc : digit? radix c with
    | none =>
      rw [hc] at h
      cases h
    | some d =>
      rw [hc] at h
      calc value ≤ value * radix := Nat.le_mul_of_pos_right value hradix
        _ ≤ value * radix + d := Nat.le_add_right _ d
        _ ≤ v := ih h

/-- To stop at the limit is to leave out what has come to it. -/
theorem belowOnto_eq {limit radix value : Nat} (hradix : 0 < radix) (hvalue : value < limit)
    (cs : List Char) :
    belowOnto limit radix value cs = (valueOnto radix value cs).filter (· < limit) := by
  induction cs generalizing value with
  | nil =>
    rw [belowOnto, valueOnto, Option.filter_some_pos]
    exact decide_eq_true hvalue
  | cons c cs ih =>
    rw [belowOnto, valueOnto]
    cases hc : digit? radix c with
    | none => rfl
    | some d =>
      show (if value * radix + d < limit then _ else none)
        = (valueOnto radix (value * radix + d) cs).filter _
      by_cases hlimit : value * radix + d < limit
      · rw [if_pos hlimit, ih hlimit]
      · rw [if_neg hlimit, eq_comm, Option.filter_eq_none_iff]
        intro v hv
        have hle := le_of_valueOnto hradix hv
        rw [decide_eq_true_iff]
        omega

theorem longWord?_eq {radix : Nat} (hradix : 0 < radix) {cs : List Char}
    (hsign : cs.head? ≠ some '+') : longWord? radix cs = (value? radix cs).filter (· < 2 ^ 64) := by
  cases cs with
  | nil => rfl
  | cons c cs =>
    have hc : c ≠ '+' := fun h => hsign (congrArg some h)
    have hword : longWord? radix (c :: cs) = belowOnto (2 ^ 64) radix 0 (c :: cs) := by
      unfold longWord?
      split <;> simp_all
    rw [hword, belowOnto_eq hradix (by decide)]
    rfl

/-- A text with a sign in front spells nothing. -/
theorem value?_sign {radix : Nat} (hradix : radix ≤ 16) {text : List Char} {sign : Char}
    (h : text.head? = some sign) (hsign : sign.isAlphanum = false) : value? radix text = none := by
  rw [Option.eq_none_iff_forall_ne_some]
  intro v hv
  have halphanum := ((value?_eq_some_iff hradix).mp hv).isAlphanum sign (List.mem_of_head? h)
  exact Bool.false_ne_true (hsign.symm.trans halphanum)

theorem radix_pos (text : List Char) : 0 < (radix text).1 := by
  unfold radix
  split <;> simp

/-- To fit a count of bits and 32 is to be below one limit. -/
theorem fits_iff {bits v : Nat} :
    v < 1 <<< min bits 32 ↔ ¬(bits < 32 ∧ 1 <<< bits ≤ v) ∧ v < 2 ^ 32 := by
  rw [Nat.one_shiftLeft, Nat.one_shiftLeft]
  by_cases hbits : bits < 32
  · have hle : 2 ^ bits ≤ 2 ^ 32 := Nat.pow_le_pow_right (by decide) (Nat.le_of_lt hbits)
    rw [Nat.min_eq_left (Nat.le_of_lt hbits)]
    omega
  · rw [Nat.min_eq_right (Nat.le_of_not_lt hbits)]
    omega

theorem numberInWords?_eq {radix : Nat} (hpos : 0 < radix) (hle : radix ≤ 16) (cs : List Char)
    (bits : Nat) :
    numberInWords? radix cs bits = (value? radix cs).filter (· < 1 <<< min bits 32) := by
  unfold numberInWords?
  by_cases hsign : cs.isEmpty || cs.head? = some '+' || cs.head? = some '-'
  · have hvalue : value? radix cs = none := by
      simp only [Bool.or_eq_true, List.isEmpty_iff, decide_eq_true_iff] at hsign
      rcases hsign with (rfl | hplus) | hminus
      · rfl
      · exact value?_sign hle hplus (by decide)
      · exact value?_sign hle hminus (by decide)
    rw [if_pos hsign, hvalue]
    rfl
  · have hplus : cs.head? ≠ some '+' := fun h => hsign (by simp [h])
    rw [if_neg hsign, longWord?_eq hpos hplus]
    cases hvalue : value? radix cs with
    | none => rfl
    | some v =>
      rw [Option.filter_some, Option.filter_some]
      simp only [fits_iff, decide_eq_true_iff]
      by_cases hlong : v < 2 ^ 64
      · rw [if_pos hlong]
        show (if bits < 32 ∧ 1 <<< bits ≤ v then none else if v < 2 ^ 32 then some v else none) = _
        grind
      · rw [if_neg hlong, if_neg (by omega)]
        rfl

/-- **The two readers agree**: neither the sign nor the limit of a word is ever seen. -/
theorem parseInWords?_eq (text : List Char) (bits : Nat) :
    parseInWords? text bits = parse? text bits :=
  numberInWords?_eq (radix_pos text) (radix_le text) (radix text).2 bits

/-- **The grammar of numbers**, on every text and for every count of bits.

* A text is read as a number exactly if the grammar has the text stand for it and it fits the count
  of bits and 32.  So a literal that is too great, however long, is read as none.
* Any number of zeros may follow a prefix.
* Nothing is read that has a sign, a space or any other character but letters and digits in it.
* The reader that takes a word of 64 bits, and leaves out signs and what does not fit, reads the
  same. -/
theorem parse?_grammar (text : List Char) (bits : Nat) :
    (∀ v, parse? text bits = some v ↔ Literal text v ∧ v < 2 ^ min bits 32) ∧
    (∀ v, Literal text v → 2 ^ min bits 32 ≤ v → parse? text bits = none) ∧
    (∀ front radix digits v n, (front, radix) ∈ prefixes → Spells radix digits v →
      v < 2 ^ min bits 32 → parse? (front ++ (List.replicate n '0' ++ digits)) bits = some v) ∧
    (∀ c ∈ text, c.isAlphanum = false → parse? text bits = none) ∧
    parseInWords? text bits = parse? text bits := by
  refine ⟨fun v => parse?_eq_some_iff, ?_, ?_, ?_, parseInWords?_eq text bits⟩
  · intro v hv hlarge
    rw [Option.eq_none_iff_forall_ne_some]
    intro w hw
    obtain ⟨hliteral, hfits⟩ := parse?_eq_some_iff.mp hw
    rw [hv.unique hliteral] at hlarge
    omega
  · intro front radix digits v n hfront hdigits hfits
    have hradix : prefixes.all (0 < ·.2) = true := by decide
    have hpos : 0 < radix := of_decide_eq_true (List.all_eq_true.mp hradix _ hfront)
    exact parse?_eq_some_iff.mpr ⟨.marked hfront (hdigits.leadingZeros hpos n), hfits⟩
  · intro c hc hother
    rw [Option.eq_none_iff_forall_ne_some]
    intro v hv
    have halphanum := (parse?_eq_some_iff.mp hv).1.isAlphanum c hc
    exact Bool.false_ne_true (hother.symm.trans halphanum)

/-- Twenty zeros in front of a byte are read, a number that a word of 64 bits would cut to one is
not, and neither is a sign behind a prefix. -/
theorem parse?_grammar_limits :
    parse? ("0x".toList ++ (List.replicate 20 '0' ++ "FF".toList)) 8 = some 255 ∧
    parse? "18446744073709551617".toList 32 = none ∧ parse? "0b+1".toList 24 = none := by
  have hbyte : Spells 16 "FF".toList 255 := (value?_eq_some_iff (by decide)).mp (by decide)
  have hlong : Literal "18446744073709551617".toList 18446744073709551617 :=
    value?_radix_eq_some_iff.mp (by decide)
  refine ⟨?_, ?_, ?_⟩
  · obtain ⟨-, -, hzeros, -⟩ := parse?_grammar [] 8
    exact hzeros _ _ _ _ 20 (by decide) hbyte (by decide)
  · obtain ⟨-, hlarge, -⟩ := parse?_grammar "18446744073709551617".toList 32
    exact hlarge _ hlong (by decide)
  · obtain ⟨-, -, -, hother, -⟩ := parse?_grammar "0b+1".toList 24
    exact hother '+' (by decide) (by decide)

end BoardConsole.Numeral
