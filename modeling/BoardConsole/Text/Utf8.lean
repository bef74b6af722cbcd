import BoardConsole.Bytes

/-!
# UTF-8

Encoding of texts, and two decoders over one scan of the bytes: the strict one refuses ill-formed
input, the lenient one shows each ill-formed part as one replacement character.  A part is the
longest beginning of a character that the bytes at hand could still have completed.
-/

namespace BoardConsole.Utf8

/-- The bytes of a text. -/
def encode (cs : List Char) : Bytes := cs.flatMap String.utf8EncodeChar

/-- What a byte of 0x80 and above starts: the number of bytes to follow, the range allowed for the
first of them, and the bits it contributes itself. -/
structure Lead where
  /-- Continuation bytes still to come. -/
  following : Nat
  /-- Least value of the next byte. -/
  low : UInt8
  /-- Greatest value of the next byte. -/
  high : UInt8
  /-- Bits of the code point held by the lead byte. -/
  bits : Nat

/-- The character a lead byte starts; a byte that starts none has no entry.  The narrowed ranges
keep out overlong forms, surrogates and what lies beyond the last code point. -/
def lead? (b : UInt8) : Option Lead :=
  let n := b.toNat
  if b < 0xC2 then none
  else if b < 0xE0 then some ⟨1, 0x80, 0xBF, n % 0x20⟩
  else if b = 0xE0 then some ⟨2, 0xA0, 0xBF, n % 0x10⟩
  else if b = 0xED then some ⟨2, 0x80, 0x9F, n % 0x10⟩
  else if b < 0xF0 then some ⟨2, 0x80, 0xBF, n % 0x10⟩
  else if b = 0xF0 then some ⟨3, 0x90, 0xBF, n % 0x08⟩
  else if b < 0xF4 then some ⟨3, 0x80, 0xBF, n % 0x08⟩
  else if b = 0xF4 then some ⟨3, 0x80, 0x8F, n % 0x08⟩
  else none

/-- Continuation bytes taken from the front: the finished code point, if all were there, and what
follows the part that was used up. -/
def follow : Nat → UInt8 → UInt8 → Nat → Bytes → Option Nat × Bytes
  | 0, _, _, code, rest => (some code, rest)
  | _ + 1, _, _, _, [] => (none, [])
  | n + 1, low, high, code, b :: rest =>
    if low ≤ b && b ≤ high then follow n 0x80 0xBF (code * 64 + b.toNat % 64) rest
    else (none, b :: rest)

/-- The character that a first byte and the bytes after it start with, `none` where they are
ill-formed, and what follows it. -/
def next (b : UInt8) (rest : Bytes) : Option Char × Bytes :=
  if b < 0x80 then (some (Char.ofNat b.toNat), rest)
  else match lead? b with
    | none => (none, rest)
    | some lead =>
      let (code, after) := follow lead.following lead.low lead.high lead.bits rest
      (code.map Char.ofNat, after)

theorem length_follow_le (n : Nat) (low high : UInt8) (code : Nat) (bs : Bytes) :
    (follow n low high code bs).2.length ≤ bs.length := by
  induction n generalizing low high code bs with
  | zero => simp [follow]
  | succ n ih =>
    cases bs with
    | nil => simp [follow]
    | cons b rest =>
      simp only [follow]
      split
      · exact Nat.le_succ_of_le (ih _ _ _ rest)
      · exact Nat.le_refl _

theorem length_next_le (b : UInt8) (rest : Bytes) : (next b rest).2.length ≤ rest.length := by
  unfold next
  split
  · exact Nat.le_refl _
  · split
    · exact Nat.le_refl _
    · exact length_follow_le ..

/-- The scan of a byte string, added to what was read before it: a character for each well-formed
part and `none` for each ill-formed one. -/
def scanOnto (done : Array (Option Char)) : Bytes → Array (Option Char)
  | [] => done
  | b :: rest => scanOnto (done.push (next b rest).1) (next b rest).2
termination_by bs => bs.length
decreasing_by exact Nat.lt_succ_of_le (length_next_le b rest)

/-- The parts of a byte string: a character for each well-formed one, `none` for the others. -/
def scan (bs : Bytes) : List (Option Char) := (scanOnto #[] bs).toList

/-- The text of a byte string, if it is well-formed. -/
def decode? (bs : Bytes) : Option (List Char) := (scan bs).mapM id

/-- The text of a byte string, with a replacement character for each ill-formed part. -/
def decodeLenient (bs : Bytes) : List Char := (scan bs).map (·.getD '\uFFFD')

end BoardConsole.Utf8
