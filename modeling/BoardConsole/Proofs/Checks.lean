import BoardConsole.Transfer.Block
import Mathlib.Algebra.CharP.Two
import Mathlib.Algebra.Field.ZMod
import Mathlib.Algebra.Polynomial.Div
import Mathlib.Algebra.Polynomial.Degree.Lemmas
import Mathlib.Data.Nat.Bitwise
import Mathlib.Data.ZMod.Basic
import Mathlib.RingTheory.AdjoinRoot

/-!
# What a block check is

The cyclic redundancy code of a byte string is the remainder of a polynomial.  The bits of the
string, first to last, are the coefficients of a polynomial over the field of two elements, highest
power first; sixteen zero bits are put after them, and what is left after division by
`X ^ 16 + X ^ 12 + X ^ 5 + 1` is the code.

- `polynomial`: numbers as polynomials, exclusive or as addition, doubling as multiplication by `X`.
- `polynomial_crcOf`: **the code is the remainder**.
- `remainder_eq_zero_iff`: a receiver that divides the bits it gets finds no remainder exactly if
  the code is right.
-/

namespace BoardConsole.Transfer

open Polynomial

/-! ## Numbers as polynomials -/

/-- A number as a polynomial over the field of two elements: its bits are the coefficients. -/
noncomputable def polynomial (n : Nat) : (ZMod 2)[X] :=
  ∑ i ∈ Finset.range n, if n.testBit i then X ^ i else 0

theorem coeff_polynomial (n i : Nat) : (polynomial n).coeff i = if n.testBit i then 1 else 0 := by
  have hterm : ∀ j, (if n.testBit j then (X : (ZMod 2)[X]) ^ j else 0).coeff i
      = if i = j then (if n.testBit j then 1 else 0) else 0 := by
    intro j
    split
    · rw [coeff_X_pow]
    · rw [coeff_zero, ite_self]
  rw [polynomial, finsetSum_coeff, Finset.sum_congr rfl fun j _ => hterm j, Finset.sum_ite_eq]
  split
  · rfl
  · rename_i hi
    -- a bit of a number stands at a place below the number
    have hlt : n < 2 ^ i := lt_of_le_of_lt (by simpa using hi) Nat.lt_two_pow_self
    rw [Nat.testBit_lt_two_pow hlt, if_neg Bool.false_ne_true]

theorem polynomial_xor (m n : Nat) : polynomial (m ^^^ n) = polynomial m + polynomial n := by
  ext i
  rw [coeff_add, coeff_polynomial, coeff_polynomial, coeff_polynomial, Nat.testBit_xor]
  cases m.testBit i <;> cases n.testBit i <;> decide

theorem polynomial_shift (n k : Nat) : polynomial (n <<< k) = X ^ k * polynomial n := by
  ext i
  rw [coeff_X_pow_mul', coeff_polynomial, Nat.testBit_shiftLeft]
  by_cases hk : k ≤ i
  · rw [if_pos hk, coeff_polynomial, decide_eq_true hk, Bool.true_and]
  · rw [if_neg hk, decide_eq_false hk, Bool.false_and, if_neg Bool.false_ne_true]

theorem polynomial_append {n k : Nat} (h : n < 2 ^ k) (m : Nat) :
    polynomial (2 ^ k * m + n) = X ^ k * polynomial m + polynomial n := by
  rw [← polynomial_shift, ← polynomial_xor]
  refine congrArg polynomial (Nat.eq_of_testBit_eq fun i => ?_)
  rw [Nat.testBit_two_pow_mul_add m h, Nat.testBit_xor, Nat.testBit_shiftLeft]
  by_cases hi : i < k
  · rw [if_pos hi, decide_eq_false (by omega), Bool.false_and, Bool.false_xor]
  · have hlt : n < 2 ^ i := lt_of_lt_of_le h (Nat.pow_le_pow_right (by decide) (by omega))
    rw [if_neg hi, decide_eq_true (by omega), Bool.true_and, Nat.testBit_lt_two_pow hlt,
      Bool.xor_false]

theorem polynomial_zero : polynomial 0 = 0 := rfl

theorem polynomial_one : polynomial 1 = 1 := by
  rw [polynomial, Finset.sum_range_one, Nat.testBit_zero]
  rfl

theorem polynomial_two_pow (k : Nat) : polynomial (2 ^ k) = X ^ k := by
  rw [← Nat.one_shiftLeft, polynomial_shift, polynomial_one, mul_one]

theorem polynomial_degree {n k : Nat} (h : n < 2 ^ k) : (polynomial n).degree < k := by
  rw [degree_lt_iff_coeff_zero]
  intro i hi
  have hlt : n < 2 ^ i := lt_of_lt_of_le h (Nat.pow_le_pow_right (by decide) hi)
  rw [coeff_polynomial, Nat.testBit_lt_two_pow hlt, if_neg Bool.false_ne_true]

theorem polynomial_injective {m n : Nat} (h : polynomial m = polynomial n) : m = n := by
  refine Nat.eq_of_testBit_eq fun i => ?_
  have hi := congrArg (fun p => p.coeff i) h
  simp only [coeff_polynomial] at hi
  cases hm : m.testBit i <;> cases hn : n.testBit i <;> simp [hm, hn] at hi ⊢

/-! ## The generator -/

/-- What codes are remainders by. -/
noncomputable def generator : (ZMod 2)[X] := X ^ 16 + X ^ 12 + X ^ 5 + 1

theorem generator_eq : generator = polynomial 0x11021 := by
  have h : 0x11021 = 2 ^ 16 ^^^ 2 ^ 12 ^^^ 2 ^ 5 ^^^ 1 := by decide
  rw [h, polynomial_xor, polynomial_xor, polynomial_xor, polynomial_two_pow, polynomial_two_pow,
    polynomial_two_pow, polynomial_one, generator]

theorem generator_low : X ^ 16 + polynomial 0x1021 = generator := by
  have h : 0x11021 = 2 ^ 16 ^^^ 0x1021 := by decide
  rw [generator_eq, h, polynomial_xor, polynomial_two_pow]

theorem generator_monic : generator.Monic := by
  rw [← generator_low]
  exact monic_X_pow_add (polynomial_degree (by decide))

theorem generator_degree : generator.degree = 16 := by
  have hlow : (polynomial 0x1021).degree < (X ^ 16 : (ZMod 2)[X]).degree := by
    rw [degree_X_pow]
    exact polynomial_degree (by decide)
  rw [← generator_low, degree_add_eq_left_of_degree_lt hlow, degree_X_pow]
  rfl

/-! ## The code is the remainder -/

theorem and_eq_zero_iff (crc : UInt16) : crc &&& 0x8000 = 0 ↔ crc.toNat < 0x8000 := by
  have hlt := crc.toNat_lt
  have hbit : crc.toNat &&& 2 ^ 15 = crc.toNat / 2 ^ 15 * 2 ^ 15 := by
    rw [Nat.and_two_pow, Nat.testBit_eq_decide_div_mod_eq]
    obtain h | h : crc.toNat / 2 ^ 15 = 0 ∨ crc.toNat / 2 ^ 15 = 1 := by omega
    · rw [h]
      rfl
    · rw [h]
      rfl
  have hmask : (0x8000 : UInt16).toNat = 2 ^ 15 := by decide
  have hzero : (0 : UInt16).toNat = 0 := rfl
  rw [← UInt16.toNat_inj, UInt16.toNat_and, hmask, hzero, hbit]
  omega

theorem toNat_double (crc : UInt16) : (crc <<< 1).toNat = 2 * crc.toNat % 0x10000 := by
  have hcount : (1 : UInt16).toNat % 16 = 1 := rfl
  rw [UInt16.toNat_shiftLeft, hcount, Nat.shiftLeft_eq]
  omega

theorem toNat_highByte (b : UInt8) : (b.toUInt16 <<< 8).toNat = b.toNat <<< 8 := by
  have hlt := b.toNat_lt
  have hcount : (8 : UInt16).toNat % 16 = 8 := rfl
  rw [UInt16.toNat_shiftLeft, hcount, UInt8.toNat_toUInt16, Nat.shiftLeft_eq]
  omega

/-- Polynomials up to multiples of the generator. -/
noncomputable abbrev residue : (ZMod 2)[X] →+* AdjoinRoot generator := AdjoinRoot.mk generator

/-- Below its leading power the generator is that power again. -/
theorem residue_low {low : Nat} (h : X ^ 16 + polynomial low = generator) :
    residue (polynomial low) = residue (X ^ 16) := by
  have hlow : polynomial low = X ^ 16 + generator := by
    rw [← h, ← add_assoc, CharTwo.add_self_eq_zero, zero_add]
  rw [hlow, map_add, AdjoinRoot.mk_self, add_zero]

/-- One shift multiplies by `X`. -/
theorem residue_crcShift_one (crc : UInt16) :
    residue (polynomial (crcShift 1 crc).toNat) = residue (X * polynomial crc.toNat) := by
  have hlt := crc.toNat_lt
  have hdouble : X * polynomial crc.toNat = polynomial (2 * crc.toNat) := by
    have h := polynomial_append (n := 0) (k := 1) (by decide) crc.toNat
    simp only [polynomial_zero, add_zero, pow_one] at h
    exact h.symm
  rw [hdouble]
  show residue (polynomial (if crc &&& 0x8000 = 0 then crc <<< 1
    else (crc <<< 1) ^^^ 0x1021).toNat) = _
  split
  · rename_i h
    rw [and_eq_zero_iff] at h
    rw [toNat_double, Nat.mod_eq_of_lt (by omega)]
  · rename_i h
    rw [and_eq_zero_iff] at h
    -- the bit that falls out is replaced by the lower powers of the generator
    have hcarry : 2 * crc.toNat = 2 ^ 16 * 1 + (crc <<< 1).toNat := by
      rw [toNat_double]
      omega
    have htoNat : (0x1021 : UInt16).toNat = 0x1021 := rfl
    rw [hcarry, polynomial_append (UInt16.toNat_lt _), polynomial_one, mul_one, UInt16.toNat_xor,
      polynomial_xor, map_add, map_add, add_comm, htoNat, residue_low generator_low]

theorem residue_crcShift (n : Nat) (crc : UInt16) :
    residue (polynomial (crcShift n crc).toNat) = residue (X ^ n * polynomial crc.toNat) := by
  induction n generalizing crc with
  | zero =>
    rw [pow_zero, one_mul]
    rfl
  | succ n ih =>
    show residue (polynomial (crcShift n (crcShift 1 crc)).toNat) = _
    rw [ih, map_mul, residue_crcShift_one, ← map_mul, pow_succ, mul_assoc]

end BoardConsole.Transfer

namespace BoardConsole

/-- A byte string as a number, first byte most significant. -/
def Bytes.number (bs : Bytes) : Nat := bs.foldl (fun n b => 2 ^ 8 * n + b.toNat) 0

theorem Bytes.number_concat (bs : Bytes) (b : UInt8) :
    Bytes.number (bs ++ [b]) = 2 ^ 8 * Bytes.number bs + b.toNat := by
  rw [Bytes.number, List.foldl_append]
  rfl

namespace Transfer

open Polynomial

theorem residue_crcByte (crc : UInt16) (b : UInt8) :
    residue (polynomial (crcByte crc b).toNat)
      = residue (X ^ 8 * (polynomial crc.toNat + X ^ 8 * polynomial b.toNat)) := by
  rw [crcByte, residue_crcShift, UInt16.toNat_xor, polynomial_xor, toNat_highByte,
    polynomial_shift]

/-- What holds after every byte. -/
theorem residue_crcOf (bs : Bytes) :
    residue (polynomial (crcOf bs).toNat) = residue (X ^ 16 * polynomial (Bytes.number bs)) := by
  induction bs using List.reverseRecOn with
  | nil =>
    show residue (polynomial 0) = residue (X ^ 16 * polynomial 0)
    rw [polynomial_zero, mul_zero]
  | append_singleton bs b ih =>
    have hstep : crcOf (bs ++ [b]) = crcByte (crcOf bs) b := List.foldl_append
    rw [hstep, residue_crcByte, Bytes.number_concat, polynomial_append b.toNat_lt, map_mul, map_add,
      ih, ← map_add, ← map_mul]
    exact congrArg residue (by ring)

/-- **The cyclic redundancy code of a byte string is a remainder**: of its bits as a polynomial,
with sixteen zero bits after them, divided by the generator. -/
theorem polynomial_crcOf (bs : Bytes) :
    polynomial (crcOf bs).toNat = (X ^ 16 * polynomial (Bytes.number bs)) %ₘ generator := by
  have hdvd : generator ∣ X ^ 16 * polynomial (Bytes.number bs) - polynomial (crcOf bs).toNat :=
    AdjoinRoot.mk_eq_mk.mp (residue_crcOf bs).symm
  obtain ⟨q, hq⟩ := hdvd
  refine ((div_modByMonic_unique q _ generator_monic ⟨?_, ?_⟩).2).symm
  · rw [← hq, add_sub_cancel]
  · rw [generator_degree]
    exact polynomial_degree (UInt16.toNat_lt _)

/-! ## Division by a receiver -/

/-- What is left of a number of some bits above the sixteenth when multiples of the generator have
been taken away from the top. -/
def divide : Nat → Nat → Nat
  | 0, n => n
  | k + 1, n => divide k (if n.testBit (k + 16) then n ^^^ 0x11021 <<< k else n)

/-- Taking the generator away at the top bit leaves a shorter number. -/
theorem xor_generator_lt {k n : Nat} (hn : n < 2 ^ (k + 17)) (htop : n.testBit (k + 16) = true) :
    n ^^^ 0x11021 <<< k < 2 ^ (k + 16) := by
  refine Nat.lt_pow_two_of_testBit _ fun i hi => ?_
  rw [Nat.testBit_xor, Nat.testBit_shiftLeft, decide_eq_true (by omega), Bool.true_and]
  obtain rfl | hi : i = k + 16 ∨ k + 17 ≤ i := by omega
  · rw [htop, Nat.add_sub_cancel_left]
    rfl
  · have hhigh : n < 2 ^ i := lt_of_lt_of_le hn (Nat.pow_le_pow_right (by decide) hi)
    have hgenerator : 0x11021 < 2 ^ (i - k) :=
      lt_of_lt_of_le (by decide : 0x11021 < 2 ^ 17) (Nat.pow_le_pow_right (by decide) (by omega))
    rw [Nat.testBit_lt_two_pow hhigh, Nat.testBit_lt_two_pow hgenerator]
    rfl

theorem divide_spec (k : Nat) {n : Nat} (hn : n < 2 ^ (k + 16)) :
    divide k n < 2 ^ 16 ∧ residue (polynomial (divide k n)) = residue (polynomial n) := by
  induction k generalizing n with
  | zero => exact ⟨by rwa [Nat.zero_add] at hn, rfl⟩
  | succ k ih =>
    have hn' : n < 2 ^ (k + 17) := by rwa [Nat.add_right_comm] at hn
    rw [divide]
    split
    · rename_i htop
      obtain ⟨hlt, hresidue⟩ := ih (xor_generator_lt hn' htop)
      refine ⟨hlt, hresidue.trans ?_⟩
      rw [polynomial_xor, polynomial_shift, ← generator_eq, map_add, map_mul, AdjoinRoot.mk_self,
        mul_zero, add_zero]
    · rename_i htop
      refine ih (Nat.lt_pow_two_of_testBit _ fun i hi => ?_)
      obtain rfl | hi : i = k + 16 ∨ k + 17 ≤ i := by omega
      · exact Bool.eq_false_iff.mpr htop
      · exact Nat.testBit_lt_two_pow
          (lt_of_lt_of_le hn' (Nat.pow_le_pow_right (by decide) hi))

/-- What a receiver is left with when it divides a payload and the two bytes after it. -/
def remainder (bs : Bytes) : Nat := divide (8 * bs.length - 16) (Bytes.number bs)

theorem number_lt (bs : Bytes) : Bytes.number bs < 2 ^ (8 * bs.length) := by
  induction bs using List.reverseRecOn with
  | nil => decide
  | append_singleton bs b ih =>
    have hb := b.toNat_lt
    have hpow : 2 ^ (8 * (bs.length + 1)) = 2 ^ 8 * 2 ^ (8 * bs.length) := by
      rw [Nat.mul_add, Nat.pow_add, Nat.mul_comm]
    rw [Bytes.number_concat, List.length_append, List.length_singleton, hpow]
    omega

/-- Only equal numbers of sixteen bits have the same residue. -/
theorem eq_of_residue {m n : Nat} (hm : m < 2 ^ 16) (hn : n < 2 ^ 16)
    (h : residue (polynomial m) = residue (polynomial n)) : m = n := by
  have hdvd : generator ∣ polynomial m - polynomial n := AdjoinRoot.mk_eq_mk.mp h
  rw [CharTwo.sub_eq_add, ← polynomial_xor] at hdvd
  have hzero : polynomial (m ^^^ n) = 0 := by
    refine eq_zero_of_dvd_of_degree_lt hdvd ?_
    rw [generator_degree]
    exact polynomial_degree (Nat.xor_lt_two_pow hm hn)
  exact Nat.xor_eq_zero_iff.mp (polynomial_injective hzero)

theorem remainder_eq (payload : Bytes) (high low : UInt8) :
    remainder (payload ++ [high, low])
      = (crcOf payload).toNat ^^^ (2 ^ 8 * high.toNat + low.toNat) := by
  have hcode : 2 ^ 8 * high.toNat + low.toNat < 2 ^ 16 := by
    have := high.toNat_lt
    have := low.toNat_lt
    omega
  have hnumber : Bytes.number (payload ++ [high, low])
      = 2 ^ 16 * Bytes.number payload + (2 ^ 8 * high.toNat + low.toNat) := by
    rw [List.append_cons, Bytes.number_concat, Bytes.number_concat]
    ring
  have hlength : (payload ++ [high, low]).length = payload.length + 2 := List.length_append
  obtain ⟨hlt, hresidue⟩ := divide_spec (8 * (payload.length + 2) - 16)
    (n := Bytes.number (payload ++ [high, low])) (by
      have h := number_lt (payload ++ [high, low])
      rw [hlength] at h
      rwa [Nat.sub_add_cancel (by omega)])
  rw [remainder, hlength]
  refine eq_of_residue hlt (Nat.xor_lt_two_pow (UInt16.toNat_lt _) hcode) ?_
  rw [hresidue, hnumber, polynomial_append hcode, polynomial_xor, map_add, map_add,
    residue_crcOf]

/-- **A receiver finds no remainder exactly if the two bytes are the code**, high byte first. -/
theorem remainder_eq_zero_iff (payload : Bytes) (high low : UInt8) :
    remainder (payload ++ [high, low]) = 0 ↔
      2 ^ 8 * high.toNat + low.toNat = (crcOf payload).toNat := by
  rw [remainder_eq, Nat.xor_eq_zero_iff]
  exact eq_comm

/-! ## Trailers -/

theorem trailer_crc16 (payload : Bytes) :
    ∃ high low, Check.crc16.trailer payload = [high, low] ∧
      2 ^ 8 * high.toNat + low.toNat = (crcOf payload).toNat := by
  refine ⟨_, _, rfl, ?_⟩
  have hlt := (crcOf payload).toNat_lt
  have hcount : (8 : UInt16).toNat % 16 = 8 := rfl
  rw [UInt16.toNat_toUInt8, UInt16.toNat_toUInt8, UInt16.toNat_shiftRight, hcount,
    Nat.shiftRight_eq_div_pow]
  omega

/-- The sum of a payload is taken modulo 256. -/
theorem trailer_sum (payload : Bytes) :
    Check.sum.trailer payload = [UInt8.ofNat (payload.map UInt8.toNat).sum] := by
  have hfold : ∀ (bs : Bytes) (start : UInt8),
      bs.foldl (· + ·) start = start + UInt8.ofNat (bs.map UInt8.toNat).sum := by
    intro bs
    induction bs with
    | nil => simp
    | cons b bs ih =>
      intro start
      rw [List.foldl_cons, ih, List.map_cons, List.sum_cons, UInt8.ofNat_add, UInt8.ofNat_toNat,
        UInt8.add_assoc]
  rw [Check.trailer, hfold, UInt8.zero_add]

end Transfer

end BoardConsole
