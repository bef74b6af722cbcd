import BoardConsole.Debugger.Procedure

/-!
# Flash sequences

Command sequences of the board's parallel flash chip, as bytes stored at fixed offsets of its
bank.  The offsets of the unlock cycles are the same wherever the chip is mapped.
-/

namespace BoardConsole.Debugger

/-- The bank the chip is mapped at. -/
def flashBank : Nat := 0x20

/-- The number of addresses of the chip's window. -/
def flashSpan : Nat := 0x100000

/-- The address of an object file moved into the chip's window. -/
def flashAddress (address : Nat) : Nat :=
  flashBank * Procedure.bankSize + address % flashSpan

namespace Procedure

/-- The two cycles that open every command. -/
def unlock : Procedure Unit := do
  sendCommand 0x5555 0xAA
  sendCommand 0x2AAA 0x55

/-- The cycles that open the commands that erase. -/
def eraseSetup : Procedure Unit := do
  unlock
  sendCommand 0x5555 0x80
  unlock

/-- The target halted and reset. -/
def halt : Procedure Unit := send [']', 'R']

/-- The whole chip erased, with the target halted and reset. -/
def eraseChip (bank : Nat) : Procedure Unit := do
  halt
  selectBank bank
  eraseSetup
  sendCommand 0x5555 0x10
  settle 100000

/-- The sector around an address erased, with the target halted and reset.  The command is opened
in the first bank of the chip and given in the sector's own. -/
def eraseSector (address : Nat) : Procedure Unit := do
  halt
  selectBank (address / bankSize / 0x10 % 0x10 * 0x10)
  eraseSetup
  selectBank (address / bankSize)
  sendCommand (address % bankSize) 0x30
  settle 50000

/-- A byte programmed at an offset of the selected bank. -/
def programByte (offset : Nat) (value : UInt8) : Procedure Unit := do
  unlock
  sendCommand 0x5555 0xA0
  sendCommand (offset % bankSize) value

/-- The identities of the chip's manufacturer and of the device. -/
def chipIdentity (bank : Nat) : Procedure (UInt8 × UInt8) := do
  send [']']
  selectBank bank
  unlock
  sendCommand 0x5555 0x90
  setOffset 0
  let manufacturer ← fetchByte
  let device ← fetchByte
  unlock
  sendCommand 0x5555 0xF0
  pure (manufacturer, device)

end Procedure

/-- A chip by its identities. -/
def describeChip (manufacturer device : UInt8) : String :=
  if manufacturer = 0xBF then
    let model :=
      if device = 0xD5 then "39xF010 (128K)"
      else if device = 0xD6 then "39xF020 (256K)"
      else if device = 0xD7 then "39xF040 (512K)"
      else s!"0x{Hex.byte device}"
    s!"Manufacturer: SST, device: {model}"
  else s!"Manufacturer: 0x{Hex.byte manufacturer}, device: 0x{Hex.byte device}"

end BoardConsole.Debugger
