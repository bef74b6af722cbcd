import BoardConsole.Proofs.Frames
import BoardConsole.Proofs.Numerals

/-!
# A receiver

What somebody who takes the other side of a batch can make of frames.  A frame is opened by its
mark, its number and the complement, and its check; the first one tells the name and the size of a
file, the numbered ones after it carry its contents up to the mark of the end, and one without a
name ends the batch.

- `openBlock`, `readHeader`, `collect`, `receive`: the receiver.
- `openBlock_block`, `readHeader_header`, `collect_framesFrom`: each undoes what the sender does.
- `receive_batch`: **the frames of a batch give the file back**.
-/

namespace BoardConsole.Transfer

open Dialogue (endOfFile fileFiller header headerSize)

/-! ## The receiver -/

/-- The bytes after a payload agree with it. -/
def Check.holds (check : Check) (payload trailer : Bytes) : Bool :=
  match check with
  | .crc16 => trailer.length = 2 && remainder (payload ++ trailer) = 0
  | .sum => trailer.map UInt8.toNat = [(payload.map UInt8.toNat).sum % 0x100]

/-- The payload of a frame, if it is an intact block with the number that is expected. -/
def openBlock (number : Nat) (check : Check) : Bytes → Option Bytes
  | mark :: n :: complement :: body =>
    let count := if mark = 0x01 then 128 else 1024
    if (mark = 0x01 ∨ mark = 0x02) ∧ n.toNat = number % 0x100 ∧ n.toNat + complement.toNat = 0xFF ∧
        check.holds (body.take count) (body.drop count) then some (body.take count)
    else none
  | _ => none

/-- What comes before the first zero and what comes after it. -/
def cut : Bytes → Option (Bytes × Bytes)
  | [] => none
  | b :: rest =>
    if b = 0 then some ([], rest) else (cut rest).map fun (front, back) => (b :: front, back)

/-- A number in decimal. -/
def decimal? (digits : Bytes) : Option Nat :=
  let text := digits.map Bytes.toChar
  if text ≠ [] ∧ text.all Char.isDigit then some (Nat.ofDigitChars 10 text 0) else none

/-- The name and the size of a file in the payload of a header. -/
def readHeader (payload : Bytes) : Option (String × Nat) :=
  match cut payload with
  | none => none
  | some (name, rest) =>
    match cut rest with
    | none => none
    | some (size, _) =>
      match String.fromUTF8? name.toByteArray, decimal? size with
      | some name, some size => some (name, size)
      | _, _ => none

/-- The payloads of the blocks from a number on up to the end of the file, and what comes after
it. -/
def collect : Nat → List (Check × Bytes) → Option (Bytes × List (Check × Bytes))
  | _, [] => none
  | number, (check, frame) :: rest =>
    if frame = [0x04] then some ([], rest)
    else
      match openBlock number check frame, collect (number + 1) rest with
      | some payload, some (contents, rest) => some (payload ++ contents, rest)
      | _, _ => none

/-- A file that has been received. -/
structure Received where
  /-- Its name. -/
  name : String
  /-- Its size as announced. -/
  size : Nat
  /-- Its contents. -/
  data : Bytes
  deriving DecidableEq

/-- The file in the frames of a batch, each with the check in force: a header, the contents, and a
header of zeros after which there is nothing. -/
def receive : List (Check × Bytes) → Option Received
  | [] => none
  | (check, frame) :: rest =>
    match (openBlock 0 check frame).bind readHeader, collect 1 rest with
    | some (name, size), some (contents, [(check, frame)]) =>
      match openBlock 0 check frame with
      | none => none
      | some payload =>
        if payload.all (· = 0) then some ⟨name, size, contents.take size⟩ else none
    | _, _ => none

/-! ## Blocks are opened -/

theorem holds_trailer (check : Check) (payload : Bytes) :
    check.holds payload (check.trailer payload) = true := by
  cases check with
  | crc16 =>
    obtain ⟨high, low, htrailer, hcode⟩ := trailer_crc16 payload
    rw [htrailer, Check.holds, (remainder_eq_zero_iff payload high low).mpr hcode]
    rfl
  | sum =>
    rw [trailer_sum, Check.holds, List.map_singleton, UInt8.toNat_ofNat', decide_eq_true_iff]

/-- **A block gives its padded payload back.** -/
theorem openBlock_block (check : Check) (size : BlockSize) (number : Nat) (filler : UInt8)
    {piece : Bytes} (hpiece : piece.length ≤ size.count) :
    openBlock number check (block check size (UInt8.ofNat number) filler piece)
      = some (piece ++ List.replicate (size.count - piece.length) filler) := by
  have hpadded : padded size filler piece
      = piece ++ List.replicate (size.count - piece.length) filler := by
    rw [padded, List.take_of_length_le hpiece]
  have hlength : (padded size filler piece).length = size.count := by
    rw [hpadded, List.length_append, List.length_replicate]
    omega
  have hmark : size.mark = 0x01 ∨ size.mark = 0x02 := by
    cases size
    · exact .inl rfl
    · exact .inr rfl
  have hcount : (if size.mark = 0x01 then 128 else 1024) = size.count := by
    cases size <;> rfl
  have hnumber : (UInt8.ofNat number).toNat = number % 0x100 := UInt8.toNat_ofNat'
  have hcomplement : (UInt8.ofNat number).toNat + (~~~ UInt8.ofNat number).toNat = 0xFF := by
    rw [complement_ofNat, UInt8.toNat_ofNat', UInt8.toNat_ofNat']
    omega
  have htake : (padded size filler piece ++ check.trailer (padded size filler piece)).take
      (if size.mark = 0x01 then 128 else 1024) = padded size filler piece := by
    rw [hcount, List.take_left' hlength]
  have hdrop : (padded size filler piece ++ check.trailer (padded size filler piece)).drop
      (if size.mark = 0x01 then 128 else 1024) = check.trailer (padded size filler piece) := by
    rw [hcount, List.drop_left' hlength]
  rw [← hpadded]
  refine (if_pos ⟨hmark, hnumber, hcomplement, ?_⟩).trans (congrArg some htake)
  exact (congrArg₂ check.holds htake hdrop).trans (holds_trailer check _)

/-! ## Headers are read -/

theorem cut_append {front : Bytes} (h : 0 ∉ front) (back : Bytes) :
    cut (front ++ 0 :: back) = some (front, back) := by
  induction front with
  | nil => rfl
  | cons b front ih =>
    rw [List.mem_cons, not_or] at h
    rw [List.cons_append, cut, if_neg (Ne.symm h.1), ih h.2]
    rfl

/-- A byte of a character is its code or none of ASCII. -/
theorem mem_utf8EncodeChar {c : Char} {b : UInt8} (h : b ∈ String.utf8EncodeChar c) :
    b.toNat = c.val.toNat ∨ 0x80 ≤ b.toNat := by
  have hhigh : ∀ n, 0x80 ≤ n → n < 0x100 → b = UInt8.ofNat n → 0x80 ≤ b.toNat := by
    rintro n hlow hn rfl
    rw [UInt8.toNat_ofNat', Nat.mod_eq_of_lt hn]
    exact hlow
  unfold String.utf8EncodeChar at h
  dsimp only at h
  by_cases h₁ : c.val.toNat ≤ 127
  · rw [if_pos h₁, List.mem_singleton] at h
    left
    rw [h, UInt8.toNat_ofNat', Nat.mod_eq_of_lt (by omega)]
  · right
    rw [if_neg h₁] at h
    split at h
    · rcases List.mem_pair.mp h with h | h <;> exact hhigh _ (by omega) (by omega) h
    · split at h
      · simp only [List.mem_cons, List.not_mem_nil, or_false] at h
        rcases h with h | h | h <;> exact hhigh _ (by omega) (by omega) h
      · simp only [List.mem_cons, List.not_mem_nil, or_false] at h
        rcases h with h | h | h | h <;> exact hhigh _ (by omega) (by omega) h

theorem zero_not_mem_encode {text : List Char} (h : '\x00' ∉ text) : 0 ∉ Utf8.encode text := by
  intro hmem
  obtain ⟨c, hc, hb⟩ := List.mem_flatMap.mp hmem
  rcases mem_utf8EncodeChar hb with hcode | hhigh
  · have hnul : c = '\x00' := Char.ext (UInt32.toNat_inj.mp hcode.symm)
    exact h (hnul ▸ hc)
  · exact absurd hhigh (by decide)

theorem toByteArray_encode (name : String) :
    (Utf8.encode name.toList).toByteArray = name.toByteArray := String.utf8Encode_toList

theorem fromUTF8?_encode (name : String) :
    String.fromUTF8? (Utf8.encode name.toList).toByteArray = some name := by
  rw [toByteArray_encode]
  exact dif_pos name.isValidUTF8

theorem length_encode (name : String) : (Utf8.encode name.toList).length = name.utf8ByteSize := by
  rw [← List.size_toByteArray, toByteArray_encode]
  rfl

theorem decimal?_toDigits (n : Nat) :
    decimal? ((Nat.toDigits 10 n).map Bytes.ofChar) = some n := by
  show decimal? (Bytes.numeral n) = some n
  rw [decimal?, Bytes.map_toChar_numeral]
  have hall : (Nat.toDigits 10 n).all Char.isDigit = true :=
    List.all_eq_true.mpr fun _ => Bytes.isDigit_of_mem_toDigits
  refine (if_pos ⟨Nat.toDigits_ne_nil, hall⟩).trans ?_
  rw [Nat.ofDigitChars_toDigits (by decide) (by decide)]

theorem zero_not_mem_digits (n : Nat) : 0 ∉ (Nat.toDigits 10 n).map Bytes.ofChar := by
  intro hmem
  obtain ⟨hlow, -⟩ := Bytes.digit_of_mem_numeral hmem
  exact absurd hlow (by decide)

/-- **A header gives name and size back**, whatever comes after it. -/
theorem readHeader_header {name : String} (hname : '\x00' ∉ name.toList) (size : Nat)
    (rest : Bytes) : readHeader (header name size ++ rest) = some (name, size) := by
  have hsplit : header name size ++ rest
      = Utf8.encode name.toList ++ 0 :: ((Nat.toDigits 10 size).map Bytes.ofChar ++ 0 :: rest) := by
    simp only [header, List.append_assoc, List.cons_append, List.nil_append]
  rw [hsplit, readHeader, cut_append (zero_not_mem_encode hname)]
  dsimp only
  rw [cut_append (zero_not_mem_digits size)]
  dsimp only
  rw [fromUTF8?_encode, decimal?_toDigits]

theorem length_header (name : String) (size : Nat) :
    (header name size).length = name.utf8ByteSize + (toString size).length + 2 := by
  have hdigits : (toString size).length = (Nat.toDigits 10 size).length := String.length_ofList
  simp only [header, List.length_append, List.length_singleton, List.length_map, length_encode,
    hdigits]
  omega

theorem length_le_headerSize {payload : Bytes} (h : payload.length ≤ 1024) :
    payload.length ≤ (headerSize payload).count := by
  unfold headerSize
  split
  · assumption
  · exact h

/-! ## Contents are collected -/

/-- A piece of a file and what is put after it. -/
def filled (size : BlockSize) (piece : Bytes) : Bytes :=
  piece ++ List.replicate (size.count - piece.length) fileFiller

theorem collect_framesFrom (check : Check) (size : BlockSize) (number : Nat)
    {pieces : List Bytes} (hpieces : ∀ piece ∈ pieces, piece.length ≤ size.count)
    (rest : List (Check × Bytes)) :
    collect number
      ((framesFrom check size (UInt8.ofNat number) pieces).map (fun f => (check, f.1)) ++ rest)
      = some ((pieces.map (filled size)).flatten, rest) := by
  induction pieces generalizing number with
  | nil => rfl
  | cons piece pieces ih =>
    obtain ⟨hpiece, hpieces⟩ := List.forall_mem_cons.mp hpieces
    have hnumber : UInt8.ofNat (number + 1) = UInt8.ofNat number + 1 := UInt8.ofNat_add ..
    have hnext := ih (number + 1) hpieces
    rw [hnumber] at hnext
    have hblock : block check size (UInt8.ofNat number) fileFiller piece ≠ [0x04] := by
      intro h
      have htail : _ :: _ = [] := (List.cons.inj h).2
      cases htail
    rw [framesFrom, List.map_cons, List.cons_append, collect, if_neg hblock,
      openBlock_block check size number fileFiller hpiece, hnext]
    rfl

/-- **The pieces of a file make the file**, up to the filler. -/
theorem flatten_chunks (size : BlockSize) (data : Bytes) :
    ∃ n, ((chunks size.count data).map (filled size)).flatten
      = data ++ List.replicate n fileFiller := by
  have hpos : 0 < size.count := by cases size <;> decide
  induction h : data.length using Nat.strongRecOn generalizing data with
  | ind k ih =>
    by_cases hdata : data = []
    · subst hdata
      rw [chunks_nil]
      exact ⟨0, rfl⟩
    · have hlength := List.length_pos_iff.mpr hdata
      obtain ⟨n, hn⟩ := ih _ (by omega) (data.drop size.count) List.length_drop
      rw [chunks_of_ne_nil hpos hdata, List.map_cons, List.flatten_cons, hn, filled]
      by_cases hlast : data.length ≤ size.count
      · rw [List.take_of_length_le hlast, List.drop_of_length_le hlast, List.nil_append,
          List.append_assoc, List.replicate_append_replicate]
        exact ⟨_, rfl⟩
      · -- a piece before the last one is full
        have htake : (data.take size.count).length = size.count := by
          rw [List.length_take]
          omega
        rw [htake, Nat.sub_self, List.replicate_zero, List.append_nil, ← List.append_assoc,
          List.take_append_drop]
        exact ⟨n, rfl⟩

theorem length_of_mem_chunks {n : Nat} (hn : 0 < n) {bs piece : Bytes} (h : piece ∈ chunks n bs) :
    piece.length ≤ n := by
  obtain ⟨i, hi⟩ := List.mem_iff_getElem?.mp h
  rw [getElem?_chunks hn] at hi
  split at hi
  · cases hi
    exact List.length_take_le _ _
  · cases hi

theorem collect_framesOf (check : Check) (size : BlockSize) (data : Bytes)
    (rest : List (Check × Bytes)) :
    ∃ n, collect 1 ((framesOf size data check).map (fun f => (check, f.1)) ++ rest)
      = some (data ++ List.replicate n fileFiller, rest) := by
  have hpos : 0 < size.count := by cases size <;> decide
  have hpieces : ∀ piece ∈ chunks size.count data, piece.length ≤ size.count :=
    fun _ => length_of_mem_chunks hpos
  obtain ⟨n, hn⟩ := flatten_chunks size data
  refine ⟨n, ?_⟩
  rw [← hn]
  exact collect_framesFrom check size 1 hpieces rest

/-! ## A batch -/

/-- The block that announces no file is all zeros. -/
theorem openBlock_empty (check : Check) :
    openBlock 0 check (block check .short 0 0 []) = some (List.replicate 128 0) :=
  openBlock_block check .short 0 0 (Nat.zero_le _)

/-- **The frames of a batch give the file back**, whatever the checks are. -/
theorem receive_batch {name : String} (hname : '\x00' ∉ name.toList) {data : Bytes}
    (hfits : (header name data.length).length ≤ 1024) (c₁ c₂ c₃ : Check) :
    receive ((c₁, block c₁ (headerSize (header name data.length)) 0 0 (header name data.length)) ::
        ((framesOf .long data c₂).map (fun f => (c₂, f.1)) ++ [(c₃, block c₃ .short 0 0 [])]))
      = some ⟨name, data.length, data⟩ := by
  have hheader : openBlock 0 c₁ (block c₁ (headerSize (header name data.length)) 0 0
      (header name data.length)) = some (header name data.length ++ _) :=
    openBlock_block c₁ _ 0 0 (length_le_headerSize hfits)
  obtain ⟨n, hcontents⟩ := collect_framesOf c₂ .long data [(c₃, block c₃ .short 0 0 [])]
  rw [receive, hheader, hcontents, Option.bind_some, readHeader_header hname]
  dsimp only
  rw [openBlock_empty]
  dsimp only
  rw [if_pos (by decide), List.take_left' rfl]

end BoardConsole.Transfer
