import BoardConsole.Log
import BoardConsole.Numeral.Hex

/-!
# The flash chip

A parallel flash chip behind a command decoder.  In array-read state its contents are plain
memory, but writes to it are cycles of commands: each command is a short sequence of values at
fixed offsets, and only the last cycle of a complete sequence does anything.  Programming clears
bits, erasing sets them.

| sequence of cycles | effect of the last one |
|--------------------|------------------------|
| unlock, A0, value anywhere | the value is programmed there |
| unlock, 80, unlock, 10 | the chip is erased |
| unlock, 80, unlock, 30 anywhere | the sector around that place is erased |
| unlock, 90 | reads answer with the chip's identity |
| F0 anywhere | reads answer with the contents |

An unlock is AA at the first and then 55 at the second of two offsets, compared by their low
fifteen bits.
-/

namespace BoardConsole.Monitor

/-- What kind of chip it is, and where it is mapped. -/
structure Part where
  /-- Identity of the manufacturer. -/
  manufacturer : UInt8 := 0xBF
  /-- Identity of the device. -/
  device : UInt8 := 0xD7
  /-- The address of the first byte. -/
  base : Nat := 0x200000
  /-- The number of bytes. -/
  size : Nat := 0x80000
  /-- The number of bytes in a sector. -/
  sector : Nat := 0x1000
  deriving DecidableEq, Repr

/-- The offset of an address in the chip, if the chip answers to it. -/
def Part.offset? (p : Part) (address : Nat) : Option Nat :=
  if p.base ≤ address ∧ address - p.base < p.size then some (address - p.base) else none

/-- How far the decoder has followed a command. -/
inductive Decoder
  /-- No command. -/
  | read
  /-- After the first unlock cycle. -/
  | unlocked1
  /-- After both unlock cycles. -/
  | unlocked2
  /-- The next cycle is the value to program. -/
  | program
  /-- After the first half of an erase command. -/
  | eraseSetup
  /-- After the first unlock cycle of its second half. -/
  | eraseUnlocked1
  /-- After both unlock cycles of its second half. -/
  | eraseUnlocked2
  deriving DecidableEq, Repr

/-- The name of a decoder state in diagnostics. -/
def Decoder.name : Decoder → String
  | .read => "Read"
  | .unlocked1 => "Unlocked1"
  | .unlocked2 => "Unlocked2"
  | .program => "Program"
  | .eraseSetup => "EraseSetup"
  | .eraseUnlocked1 => "EraseUnlocked1"
  | .eraseUnlocked2 => "EraseUnlocked2"

/-- Offset of the first unlock cycle. -/
def unlockFirst : Nat := 0x5555

/-- Offset of the second unlock cycle. -/
def unlockSecond : Nat := 0x2AAA

/-- An erased byte. -/
def erased : UInt8 := 0xFF

/-- What one write cycle amounts to. -/
inductive Cycle
  /-- The command goes on, in this state. -/
  | follow (next : Decoder)
  /-- The value is programmed. -/
  | program
  /-- The identity is shown from now on. -/
  | enterIdentity
  /-- The contents are shown from now on. -/
  | leaveIdentity
  /-- Everything is erased. -/
  | eraseChip
  /-- One sector is erased. -/
  | eraseSector
  /-- There is no such command. -/
  | ignore
  deriving DecidableEq, Repr

/-- The meaning of a value written at an offset. -/
def Decoder.decode (state : Decoder) (offset : Nat) (value : UInt8) : Cycle :=
  let place := offset % 0x8000
  match state with
  | .program => .program
  | .read =>
    if place = unlockFirst ∧ value = 0xAA then .follow .unlocked1 else otherwise value
  | .unlocked1 =>
    if place = unlockSecond ∧ value = 0x55 then .follow .unlocked2 else otherwise value
  | .unlocked2 =>
    if place = unlockFirst ∧ value = 0xA0 then .follow .program
    else if place = unlockFirst ∧ value = 0x80 then .follow .eraseSetup
    else if place = unlockFirst ∧ value = 0x90 then .enterIdentity
    else otherwise value
  | .eraseSetup =>
    if place = unlockFirst ∧ value = 0xAA then .follow .eraseUnlocked1 else otherwise value
  | .eraseUnlocked1 =>
    if place = unlockSecond ∧ value = 0x55 then .follow .eraseUnlocked2 else otherwise value
  | .eraseUnlocked2 =>
    if place = unlockFirst ∧ value = 0x10 then .eraseChip
    else if value = 0x30 then .eraseSector
    else otherwise value
where
  /-- A value that continues no command. -/
  otherwise (value : UInt8) : Cycle := if value = 0xF0 then .leaveIdentity else .ignore

/-- A flash chip. -/
structure Chip where
  /-- Its kind. -/
  part : Part
  /-- Its contents. -/
  data : Array UInt8
  /-- It has as many bytes as its kind says. -/
  size_data : data.size = part.size
  /-- How far it has followed a command. -/
  state : Decoder := .read
  /-- Whether reads answer with its identity. -/
  showsIdentity : Bool := false
  deriving DecidableEq, Repr

namespace Chip

/-- An erased chip. -/
def blank (part : Part) : Chip where
  part
  data := Array.replicate part.size erased
  size_data := Array.size_replicate

/-- What a read at an offset gives. -/
def read (c : Chip) (offset : Nat) : UInt8 :=
  if c.showsIdentity then if offset % 2 = 0 then c.part.manufacturer else c.part.device
  else c.data[offset]?.getD erased

/-- The first offset of the sector around an offset. -/
def sectorStart (c : Chip) (offset : Nat) : Nat := offset - offset % c.part.sector

/-- A write cycle. -/
def write (c : Chip) (offset : Nat) (value : UInt8) : Chip :=
  let ⟨part, data, size_data, state, showsIdentity⟩ := c
  match state.decode offset value with
  | .follow next => ⟨part, data, size_data, next, showsIdentity⟩
  | .program =>
    ⟨part, data.modify offset (· &&& value), Array.size_modify.trans size_data, .read,
      showsIdentity⟩
  | .enterIdentity => ⟨part, data, size_data, .read, true⟩
  | .leaveIdentity => ⟨part, data, size_data, .read, false⟩
  | .eraseChip =>
    ⟨part, Array.replicate data.size erased, Array.size_replicate.trans size_data, .read,
      showsIdentity⟩
  | .eraseSector =>
    let start := offset - offset % part.sector
    ⟨part, data.mapIdx fun i b => if start ≤ i ∧ i < start + part.sector then erased else b,
      Array.size_mapIdx.trans size_data, .read, showsIdentity⟩
  | .ignore => ⟨part, data, size_data, .read, showsIdentity⟩

/-- A byte put at an offset without the decoder. -/
def poke (c : Chip) (offset : Nat) (value : UInt8) : Chip :=
  let ⟨part, data, size_data, state, showsIdentity⟩ := c
  ⟨part, data.setIfInBounds offset value, Array.size_setIfInBounds.trans size_data, state,
    showsIdentity⟩

/-- Every byte set without the decoder. -/
def fill (c : Chip) (value : UInt8) : Chip :=
  { c with
    data := Array.replicate c.data.size value
    size_data := Array.size_replicate.trans c.size_data }

/-- What a write cycle gives reason to remark. -/
def remark (c : Chip) (offset : Nat) (value : UInt8) (log : Log) : Log :=
  match c.state.decode offset value with
  | .eraseChip => log.add .trace fun _ => "flash: chip erase"
  | .eraseSector => log.add .trace fun _ =>
    s!"flash: sector erase at 0x{Hex.lower (c.sectorStart offset) 5}"
  | .ignore => log.add .trace fun _ =>
    s!"flash: ignoring {Hex.byte value} at 0x{Hex.lower offset 5} in {c.state.name}"
  | _ => log

end Chip

end BoardConsole.Monitor
