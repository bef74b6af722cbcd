import BoardConsole.Debugger.Command
import BoardConsole.Debugger.Flash
import BoardConsole.Debugger.Loader

/-!
# What commands do

The procedure of each command.  Object files are handled byte by byte, and the target is pointed
anew wherever a byte starts another bank, because the target's pointer is only relied on within a
bank.

* `Purpose.segment`: one segment written or compared.
* `Command.procedure`: the procedure of a command.
-/

namespace BoardConsole.Debugger

open ObjectFile (Segment)
open Procedure

/-- The ending of a noun by its count. -/
def plural (count : Nat) : String := if count = 1 then "" else "s"

/-! ## Memory shown and written -/

/-- Rows shown for an address. -/
def dumpRows : Nat := 4

/-- Bytes in a row. -/
def rowBytes : Nat := 16

/-- The bytes of a row as text, a blank for each that is not printable. -/
def rowText (bs : Bytes) : List Char :=
  bs.map fun b => if Bytes.isPrintable b then Bytes.toChar b else ' '

/-- A row of memory: its address, its bytes in two groups, and their characters. -/
def dumpRow (address : Nat) (bs : Bytes) : String :=
  let field (b : UInt8) : List Char := Hex.digits b.toNat 2 ++ [' ']
  String.ofList (Hex.digits address 8 ++ [' ', ' '] ++ (bs.take 8).flatMap field ++ [' ']
    ++ (bs.drop 8).flatMap field ++ ['['] ++ rowText bs ++ [']'])

/-- Rows of memory from the target's pointer on, the first at an address. -/
def dump (address : Nat) : Nat → Procedure Unit
  | 0 => pure ()
  | n + 1 => do
    let row ← fetchBytes rowBytes
    say (dumpRow address row)
    dump (address + rowBytes) n

/-- The memory at some addresses. -/
def readMemory : List Number → Procedure Unit
  | [] => pure ()
  | .valid address :: rest => do
    setAddress address
    dump address dumpRows
    readMemory rest
  | .invalid token :: rest => do
    say s!"Bad address: {token}"
    readMemory rest

/-- Bytes stored at the target's pointer. -/
def storeBytes : Bytes → Procedure Unit
  | [] => pure ()
  | b :: bs => do
    storeByte b
    storeBytes bs

/-- Bytes stored at an address, and the number of them. -/
def writeMemory : Option WriteArgs → Procedure Nat
  | none => pure 0
  | some ⟨.invalid token, _, _⟩ => do
    say s!"Bad address: {token}"
    pure 0
  | some ⟨.valid address, data, rejected⟩ => do
    setAddress address
    storeBytes data
    match rejected with
    | some token => say s!"Bad data: {token}"
    | none => pure ()
    pure data.length

/-! ## Object files -/

/-- Whether to go on. -/
inductive Flow
  /-- With the next byte. -/
  | onward
  /-- Not at all. -/
  | abort
  deriving DecidableEq, Repr

namespace Purpose

/-- Whether memory is compared and not changed. -/
def compares : Purpose → Bool
  | .verify | .verifyRom => true
  | .program | .flash => false

/-- Whether the flash chip is meant. -/
def inFlash : Purpose → Bool
  | .flash | .verifyRom => true
  | .program | .verify => false

/-- Where a segment goes. -/
def address (p : Purpose) (s : Segment) : Nat :=
  if p.inFlash then flashAddress s.address else s.address

/-- The target pointed at an address.  Programming the chip points at every byte by itself and
only needs the bank. -/
def point (p : Purpose) (address : Nat) : Procedure Unit :=
  match p with
  | .flash => selectBank (address / bankSize)
  | _ => setAddress address

/-- The byte at the target's pointer compared with one it should be. -/
def check (address : Nat) (expected : UInt8) : Procedure Flow := do
  let actual ← fetchByte
  if actual = expected then pure .onward
  else do
    note .debug s!"mismatch at {Hex.upper address 6}: expected {Hex.byte expected}, read {Hex.byte actual}"
    say s!"Validation failed at {Hex.lower address 8}!"
    pure .abort

/-- One byte written or compared at an address. -/
def byte (p : Purpose) (address : Nat) (b : UInt8) : Procedure Flow :=
  match p with
  | .program => do
    storeByte b
    pure .onward
  | .flash => do
    if b = 0xFF then pure () else programByte address b
    pure .onward
  | .verify | .verifyRom => check address b

/-- Bytes of a segment between two reports of progress. -/
def progressInterval : Nat := 0x800

/-- Progress through a segment, told every so many bytes of work on the flash chip. -/
def report (p : Purpose) (index total : Nat) : Procedure Unit :=
  if p.inFlash && index % progressInterval = 0 then progress s!"{index * 100 / total}%"
  else pure ()

/-- The bytes of a segment from one on, written or compared.  The target is pointed anew at the
start of a bank. -/
def bytes (p : Purpose) (base total : Nat) : Nat → Bytes → Procedure Flow
  | _, [] => pure .onward
  | index, b :: rest => do
    p.report index total
    let address := (base + index) % ObjectFile.addressSpace
    if index ≠ 0 ∧ address % bankSize = 0 then p.point address else pure ()
    match ← p.byte address b with
    | .onward => p.bytes base total (index + 1) rest
    | .abort => pure .abort

/-- A segment written or compared. -/
def segment (p : Purpose) (s : Segment) : Procedure Flow := do
  p.point (p.address s)
  p.bytes (p.address s) s.data.length 0 s.data

/-- What is said about a segment before it is handled. -/
def announcement (p : Purpose) (number : Nat) (s : Segment) : String :=
  let verb := if p.compares then "Verifying" else "Programming"
  let count := s.data.length
  s!"{verb} segment {number} at 0x{Hex.lower (p.address s) 8}, {count} byte{plural count}"

/-- Segments written or compared one after another, counted from a number. -/
def segments (p : Purpose) : Nat → List Segment → Procedure Flow
  | _, [] => pure .onward
  | number, s :: rest => do
    say (p.announcement number s)
    match ← p.segment s with
    | .onward => do
      say "Segment complete!"
      p.segments (number + 1) rest
    | .abort => pure .abort

/-- What is said at the end. -/
def completion : Purpose → String
  | .program => "Program complete!"
  | .flash => "Flash complete!"
  | .verify | .verifyRom => "Verify complete!"

/-- What is done before the first segment. -/
def prepare : Purpose → Procedure Unit
  | .program | .verify => pure ()
  | .flash => do
    say "Erasing chip..."
    eraseChip flashBank
    say "Flashing..."
  | .verifyRom => say "Verifying..."

/-- All segments of an object file written or compared. -/
def transfer (p : Purpose) (found : List Segment) : Procedure Unit := do
  halt
  p.prepare
  match ← p.segments 0 found with
  | .onward => say p.completion
  | .abort => pure ()

end Purpose

/-! ## Commands -/

/-- Remarks left in the log. -/
def notes : List Log.Record → Procedure Unit
  | [] => pure ()
  | record :: rest => do
    note record.level record.text
    notes rest

/-- An object file loaded, and used if that went well. -/
def transferFile (loader : Loader) (purpose : Purpose) : Option String → Procedure Unit
  | none => say "No file specified!"
  | some file => do
    notes (loader.remarks file)
    match loader.load file with
    | .error fault => say (fault.message file)
    | .ok found => purpose.transfer found

/-- Characters sent, and a line said. -/
def control (text : List Char) (message : String) : Procedure Unit := do
  send text
  say message

/-- The bank of the memory mapper's registers. -/
def mapperBank : Nat := 0x08

/-- The registers of the memory mapper from one pair on set to map memory one to one. -/
def mapPairs : Nat → Nat → Procedure Unit
  | _, 0 => pure ()
  | i, n + 1 => do
    sendCommand (2 * i) (UInt8.ofNat (16 * i))
    sendCommand (2 * i + 1) 0x80
    mapPairs (i + 1) n

/-- The procedure of a command. -/
def Command.procedure (loader : Loader) : Command → Procedure Unit
  | .stop => control [']'] "Stop sent!"
  | .go => control ['['] "Go sent!"
  | .reset => control ['R'] "Reset sent!"
  | .step => control ['X'] "Step sent!"
  | .run => control [']', 'R', '['] "Run sent!"
  | .read addresses => readMemory addresses
  | .write args => do
    let count ← writeMemory args
    say s!"Wrote {count} byte{plural count}!"
  | .transfer purpose file => transferFile loader purpose file
  | .mapRam => do
    halt
    selectBank mapperBank
    mapPairs 0 16
    say "RAM mapped to bank 0!"
  | .erase => do
    eraseChip flashBank
    say "Flash ROM erased!"
  | .eraseSector none => say "No address specified!"
  | .eraseSector (some (.invalid token)) => say s!"Bad address: {token}"
  | .eraseSector (some (.valid address)) => do
    Procedure.eraseSector address
    say s!"Sector at 0x{Hex.upper address 6} erased!"
  | .chipId => do
    let (manufacturer, device) ← chipIdentity flashBank
    note .debug s!"chip id {Hex.byte manufacturer} {Hex.byte device}"
    say (describeChip manufacturer device)
  | .resync => do
    let _ ← drain
    pure ()
  | .unknown name => say s!"Unknown command: '{name}'"

end BoardConsole.Debugger
