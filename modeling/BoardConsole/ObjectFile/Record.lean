import BoardConsole.Numeral.Hex

/-!
# Records of Intel HEX files

A record is a line: a colon and then pairs of hexadecimal digits.  The bytes they stand for are a
length, a load offset of two bytes, a type, the payload and a checksum that makes the sum of all of
them zero.  `Record.read` refuses a line for its first fault in a fixed order of checks, from the
spelling of the line to the length its type asks for.
-/

namespace BoardConsole.ObjectFile

/-- What a line of an object file says. -/
inductive Record
  /-- Bytes to place at an offset from the current base. -/
  | data (offset : Nat) (bytes : Bytes)
  /-- Nothing after this line counts. -/
  | endOfFile
  /-- The base is sixteen times the segment. -/
  | segmentBase (segment : Nat)
  /-- Where execution starts, as segment and offset. -/
  | segmentStart
  /-- The base has these upper sixteen bits. -/
  | linearBase (upper : Nat)
  /-- Where execution starts, as an address. -/
  | linearStart
  deriving DecidableEq, Repr

/-- Why a line is no record. -/
inductive RecordFault
  /-- The line does not begin with a colon. -/
  | missingStart
  /-- A character after the colon is not a hexadecimal digit. -/
  | strayCharacter
  /-- There are not even a header and a checksum. -/
  | tooShort
  /-- There is more than the longest payload. -/
  | tooLong
  /-- The last byte has one digit. -/
  | halfByte
  /-- The checksum found is not the one computed. -/
  | checksum (computed found : UInt8)
  /-- The payload is not as long as the header says. -/
  | payloadLength
  /-- The type is not known. -/
  | unknownType (type : UInt8)
  /-- The payload is not as long as the type asks for. -/
  | lengthForType
  deriving DecidableEq, Repr

/-- What is said about a line that is no record. -/
def RecordFault.message : RecordFault → String
  | .missingStart => "missing start code ':'"
  | .strayCharacter => "invalid characters encountered in record"
  | .tooShort => "too short"
  | .tooLong => "too long"
  | .halfByte => "record does not contain a whole number of bytes"
  | .checksum computed found =>
    s!"invalid checksum '{Hex.byte computed}', expecting '{Hex.byte found}'"
  | .payloadLength => "payload length does not match record header"
  | .unknownType type => s!"unsupported IHEX record type '{Hex.byte type}'"
  | .lengthForType => "payload length invalid for record type"

namespace Record

/-- The fewest digits of a record: header and checksum. -/
def leastDigits : Nat := 10

/-- The most digits of a record: header, the longest payload and checksum. -/
def mostDigits : Nat := 520

/-- The bytes of a row of digits taken two by two. -/
def bytesOfDigits : List Nat → Bytes
  | high :: low :: rest => UInt8.ofNat (16 * high + low) :: bytesOfDigits rest
  | _ => []

/-- The bytes a line spells. -/
def spelled (line : List Char) : Except RecordFault Bytes :=
  match line with
  | ':' :: rest =>
    match rest.mapM Hex.digit? with
    | none => .error .strayCharacter
    | some ds =>
      if ds.length < leastDigits then .error .tooShort
      else if mostDigits < ds.length then .error .tooLong
      else if ds.length % 2 = 1 then .error .halfByte
      else .ok (bytesOfDigits ds)
  | _ => .error .missingStart

/-- The last byte of a record that holds the given bytes. -/
def checksum (bytes : Bytes) : UInt8 := 0 - bytes.foldl (· + ·) 0

/-- The number two bytes stand for, high byte first. -/
def word (high low : UInt8) : Nat := 256 * high.toNat + low.toNat

/-- The record of a type, an offset and a payload. -/
def ofParts (type : UInt8) (offset : Nat) (payload : Bytes) : Except RecordFault Record :=
  match type, payload with
  | 0, payload => .ok (.data offset payload)
  | 1, [] => .ok .endOfFile
  | 2, [high, low] => .ok (.segmentBase (word high low))
  | 3, [_, _, _, _] => .ok .segmentStart
  | 4, [high, low] => .ok (.linearBase (word high low))
  | 5, [_, _, _, _] => .ok .linearStart
  | type, _ => if 5 < type then .error (.unknownType type) else .error .lengthForType

/-- The record some bytes make up, checksum included. -/
def ofBytes (bytes : Bytes) : Except RecordFault Record :=
  let found := bytes.getLast?.getD 0
  let computed := checksum bytes.dropLast
  if computed ≠ found then .error (.checksum computed found)
  else match bytes.dropLast with
    | length :: high :: low :: type :: payload =>
      if payload.length ≠ length.toNat then .error .payloadLength
      else ofParts type (word high low) payload
    | _ => .error .tooShort

/-- The record of a line, or the line's first fault. -/
def read (line : List Char) : Except RecordFault Record := (spelled line).bind ofBytes

end Record

end BoardConsole.ObjectFile
