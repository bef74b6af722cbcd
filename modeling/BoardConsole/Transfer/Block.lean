import BoardConsole.Bytes

/-!
# Blocks

The unit of the block protocols: a mark for the size, the block's number and its complement, the
payload padded to the size, and a check over the padded payload, which is a cyclic redundancy code
or a plain sum as the receiver wishes.
-/

namespace BoardConsole.Transfer

/-- How a block is checked. -/
inductive Check
  /-- The 16-bit cyclic redundancy code with polynomial 1021. -/
  | crc16
  /-- The sum of the bytes. -/
  | sum
  deriving DecidableEq, Repr

/-- The name of a check in diagnostics. -/
def Check.name : Check → String
  | .crc16 => "Crc16"
  | .sum => "Sum"

/-- The two sizes of a block. -/
inductive BlockSize
  /-- 128 bytes. -/
  | short
  /-- 1024 bytes. -/
  | long
  deriving DecidableEq, Repr

/-- The number of payload bytes of a block. -/
def BlockSize.count : BlockSize → Nat
  | .short => 128
  | .long => 1024

/-- The byte a block of a size begins with. -/
def BlockSize.mark : BlockSize → UInt8
  | .short => 0x01
  | .long => 0x02

/-- A cyclic redundancy code shifted by some bits. -/
def crcShift : Nat → UInt16 → UInt16
  | 0, crc => crc
  | n + 1, crc => crcShift n (if crc &&& 0x8000 = 0 then crc <<< 1 else (crc <<< 1) ^^^ 0x1021)

/-- A cyclic redundancy code taken on by a byte. -/
def crcByte (crc : UInt16) (b : UInt8) : UInt16 := crcShift 8 (crc ^^^ (b.toUInt16 <<< 8))

/-- The cyclic redundancy code of a byte string. -/
def crcOf (bs : Bytes) : UInt16 := bs.foldl crcByte 0

/-- The bytes that check a payload. -/
def Check.trailer (c : Check) (payload : Bytes) : Bytes :=
  match c with
  | .crc16 => let crc := crcOf payload; [(crc >>> 8).toUInt8, crc.toUInt8]
  | .sum => [payload.foldl (· + ·) 0]

/-- A payload padded to a size. -/
def padded (size : BlockSize) (filler : UInt8) (payload : Bytes) : Bytes :=
  payload.take size.count ++ List.replicate (size.count - payload.length) filler

/-- A block on the wire. -/
def block (check : Check) (size : BlockSize) (number : UInt8) (filler : UInt8) (payload : Bytes) :
    Bytes :=
  let body := padded size filler payload
  [size.mark, number, ~~~number] ++ body ++ check.trailer body

/-- A byte string cut into pieces of a length, the last of which may be shorter. -/
def chunks (length : Nat) (bs : Bytes) : List Bytes :=
  if bs.isEmpty || length = 0 then [] else bs.take length :: chunks length (bs.drop length)
termination_by bs.length
decreasing_by
  simp_all [List.length_drop, List.isEmpty_iff, ← List.length_pos_iff]
  omega

end BoardConsole.Transfer
