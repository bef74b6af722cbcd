import BoardConsole.Proofs.Checks
import BoardConsole.Transfer.Sender

/-!
# The frames of a file

What a sender has to put on the wire for a file, told without the sender: the file cut into pieces
of one size, each in a block of its own with a number that counts from one and wraps around, and
the byte that ends a file.

- `IsCheck`, `IsBlock`, `IsFile`: what the check, a block and the whole list have to be.
- `framesOf`: the list as the sender makes it.
- `isFile_framesOf`: **it is what it has to be**.
-/

namespace BoardConsole.Transfer

open Dialogue (endOfFile fileFiller)

/-! ## The sender's frames -/

/-- The frames of the pieces of a file, counted from a number, and the end of the file. -/
def framesFrom (check : Check) (size : BlockSize) : UInt8 → List Bytes → List (Bytes × Failure)
  | _, [] => [([endOfFile], .endRefused)]
  | number, piece :: rest =>
    (block check size number fileFiller piece, .blockRefused number)
      :: framesFrom check size (number + 1) rest

/-- The frames of a file. -/
def framesOf (size : BlockSize) (data : Bytes) (check : Check) : List (Bytes × Failure) :=
  framesFrom check size 1 (chunks size.count data)

/-! ## What they have to be -/

/-- The bytes after a payload check it: the remainder of its bits as a polynomial, sixteen zero
bits after them, high byte first, or the sum of its bytes. -/
def IsCheck (check : Check) (payload trailer : Bytes) : Prop :=
  match check with
  | .crc16 => ∃ high low, trailer = [high, low] ∧
      polynomial (2 ^ 8 * high.toNat + low.toNat)
        = (Polynomial.X ^ 16 * polynomial (Bytes.number payload)) %ₘ generator
  | .sum => ∃ b, trailer = [b] ∧ b.toNat = (payload.map UInt8.toNat).sum % 0x100

/-- The frame of a piece of a file: a mark for the size, the number of the block and its
complement, the piece padded to the size, and its check. -/
def IsBlock (size : BlockSize) (check : Check) (number : Nat) (piece frame : Bytes) : Prop :=
  ∃ payload trailer,
    payload = piece ++ List.replicate (size.count - piece.length) 0x1A ∧
    IsCheck check payload trailer ∧
    frame = [match size with | .short => 0x01 | .long => 0x02, UInt8.ofNat (number % 0x100),
      UInt8.ofNat (0xFF - number % 0x100)] ++ payload ++ trailer

/-- The frames of a file: its blocks, counted from one, and the end, each with the failure if it is
never accepted. -/
structure IsFile (size : BlockSize) (check : Check) (data : Bytes)
    (frames : List (Bytes × Failure)) : Prop where
  count : frames.length = (data.length + size.count - 1) / size.count + 1
  block : ∀ i, i * size.count < data.length → ∃ frame,
    frames[i]? = some (frame, .blockRefused (UInt8.ofNat (i + 1))) ∧
      IsBlock size check (i + 1) ((data.drop (i * size.count)).take size.count) frame
  last : frames.getLast? = some ([0x04], .endRefused)

/-! ## Blocks -/

theorem isCheck_trailer (check : Check) (payload : Bytes) :
    IsCheck check payload (check.trailer payload) := by
  cases check with
  | crc16 =>
    obtain ⟨high, low, htrailer, hcode⟩ := trailer_crc16 payload
    refine ⟨high, low, htrailer, ?_⟩
    rw [hcode, polynomial_crcOf]
  | sum =>
    refine ⟨_, trailer_sum payload, ?_⟩
    rw [UInt8.toNat_ofNat']

theorem complement_ofNat (n : Nat) :
    ~~~ UInt8.ofNat n = UInt8.ofNat (0xFF - n % 0x100) := by
  rw [← UInt8.toNat_inj, UInt8.toNat_not, UInt8.toNat_ofNat', UInt8.toNat_ofNat']
  show 255 - n % 256 = (255 - n % 256) % 256
  omega

theorem isBlock_block (size : BlockSize) (check : Check) (number : Nat) {piece : Bytes}
    (hpiece : piece.length ≤ size.count) :
    IsBlock size check number piece
      (block check size (UInt8.ofNat number) fileFiller piece) := by
  refine ⟨_, _, rfl, isCheck_trailer check _, ?_⟩
  have hnumber : UInt8.ofNat (number % 0x100) = UInt8.ofNat number := UInt8.ofNat_mod_size
  rw [block, padded, List.take_of_length_le hpiece, complement_ofNat, hnumber]
  cases size <;> rfl

/-! ## Pieces -/

theorem chunks_nil (n : Nat) : chunks n [] = [] := by
  rw [chunks]
  rfl

theorem chunks_of_ne_nil {n : Nat} (hn : 0 < n) {bs : Bytes} (hbs : bs ≠ []) :
    chunks n bs = bs.take n :: chunks n (bs.drop n) := by
  rw [chunks, if_neg]
  rw [Bool.or_eq_true, not_or, List.isEmpty_iff, decide_eq_true_iff]
  exact ⟨hbs, by omega⟩

theorem getElem?_chunks {n : Nat} (hn : 0 < n) (i : Nat) (bs : Bytes) :
    (chunks n bs)[i]? = if i * n < bs.length then some ((bs.drop (i * n)).take n) else none := by
  induction i generalizing bs with
  | zero =>
    rw [Nat.zero_mul]
    by_cases hbs : bs = []
    · subst hbs
      rw [chunks_nil]
      rfl
    · rw [chunks_of_ne_nil hn hbs, if_pos (List.length_pos_iff.mpr hbs)]
      rfl
  | succ i ih =>
    by_cases hbs : bs = []
    · subst hbs
      have hnone : ¬ (i + 1) * n < ([] : Bytes).length := Nat.not_lt_zero _
      rw [chunks_nil, if_neg hnone]
      rfl
    · have hiff : i * n < bs.length - n ↔ (i + 1) * n < bs.length := by
        rw [Nat.succ_mul]
        omega
      rw [chunks_of_ne_nil hn hbs, List.getElem?_cons_succ, ih, List.length_drop, List.drop_drop]
      simp only [hiff, Nat.succ_mul, Nat.add_comm]

theorem length_chunks {n : Nat} (hn : 0 < n) (bs : Bytes) :
    (chunks n bs).length = (bs.length + n - 1) / n := by
  induction h : bs.length using Nat.strongRecOn generalizing bs with
  | ind k ih =>
    by_cases hbs : bs = []
    · subst hbs
      have hnone : k + n - 1 < n := by
        rw [← h, List.length_nil]
        omega
      rw [chunks_nil, Nat.div_eq_of_lt hnone]
      rfl
    · have hpos := List.length_pos_iff.mpr hbs
      have hrest := ih (k - n) (by omega) (bs.drop n) (by rw [List.length_drop, h])
      have hsum : k + n - 1 = k - 1 + n := by omega
      rw [chunks_of_ne_nil hn hbs, List.length_cons, hrest, hsum, Nat.add_div_right _ hn]
      -- the last piece may be shorter
      by_cases hlast : k ≤ n
      · rw [Nat.div_eq_of_lt (by omega), Nat.div_eq_of_lt (by omega)]
      · rw [show k - n + n - 1 = k - 1 by omega]

/-! ## The list -/

theorem length_framesFrom (check : Check) (size : BlockSize) (number : UInt8)
    (pieces : List Bytes) : (framesFrom check size number pieces).length = pieces.length + 1 := by
  induction pieces generalizing number with
  | nil => rfl
  | cons piece pieces ih => exact congrArg Nat.succ (ih _)

theorem getElem?_framesFrom (check : Check) (size : BlockSize) (number : Nat)
    {pieces : List Bytes} {i : Nat} {piece : Bytes} (h : pieces[i]? = some piece) :
    (framesFrom check size (UInt8.ofNat number) pieces)[i]?
      = some (block check size (UInt8.ofNat (number + i)) fileFiller piece,
          .blockRefused (UInt8.ofNat (number + i))) := by
  induction pieces generalizing number i with
  | nil => cases h
  | cons first pieces ih =>
    cases i with
    | zero =>
      cases h
      rfl
    | succ i =>
      have hnext := ih (number + 1) h
      rw [UInt8.ofNat_add, Nat.add_right_comm] at hnext
      exact hnext

theorem getLast?_framesFrom (check : Check) (size : BlockSize) (number : UInt8)
    (pieces : List Bytes) :
    (framesFrom check size number pieces).getLast? = some ([0x04], .endRefused) := by
  induction pieces generalizing number with
  | nil => rfl
  | cons piece pieces ih => 
    rw [framesFrom, List.getLast?_cons, ih]
    rfl

theorem isFile_framesOf (size : BlockSize) (data : Bytes) (check : Check) :
    IsFile size check data (framesOf size data check) := by
  have hpos : 0 < size.count := by cases size <;> decide
  constructor
  · rw [framesOf, length_framesFrom, length_chunks hpos]
  · intro i hi
    have hpiece : (chunks size.count data)[i]?
        = some ((data.drop (i * size.count)).take size.count) := by
      rw [getElem?_chunks hpos, if_pos hi]
    have hframe := getElem?_framesFrom check size 1 hpiece
    rw [Nat.add_comm] at hframe
    exact ⟨_, hframe, isBlock_block size check (i + 1) (List.length_take_le _ _)⟩
  · exact getLast?_framesFrom _ _ _ _

end BoardConsole.Transfer
