import BoardConsole.Link.Basic
import BoardConsole.Monitor.Chip
import Std.Data.TreeMap.Basic

/-!
# The debug monitor of a board

The other end of the debug link: a small program on the board that executes a terse protocol
against the board's memory, one byte at a time.

| wire | meaning |
|------|---------|
| `]` `[` `R` `X` | stop, go, reset, single step |
| `BB:` | point at the start of bank `BB` |
| `OOOO#` | point at an offset in the bank |
| `DD!` | store `DD` at the pointer, advance |
| `@` | answer the byte at the pointer as two digits, advance |

Numbers are digits kept until the next byte that is none.  The memory is RAM, the memory mapper's
registers, and a flash chip that hides what is behind it.
-/

namespace BoardConsole

/-- How the pointer goes on after a byte. -/
inductive Monitor.Advance
  /-- Through all of memory. -/
  | linear
  /-- Around within its bank. -/
  | banked
  deriving DecidableEq, Repr

/-- How often each control has been used. -/
structure Monitor.Controls where
  /-- Halts. -/
  stop : Nat := 0
  /-- Resumptions. -/
  go : Nat := 0
  /-- Resets. -/
  reset : Nat := 0
  /-- Single steps. -/
  step : Nat := 0
  deriving DecidableEq, Repr

/-- Number of addresses of the board. -/
def Monitor.space : Nat := 0x1000000

/-- Number of registers of the memory mapper. -/
def Monitor.mapperCount : Nat := 32

/-- The state of a monitor and its board. -/
structure Monitor where
  /-- Bytes stored in RAM; others are zero. -/
  ram : Std.TreeMap Nat UInt8 := {}
  /-- The registers of the memory mapper. -/
  remap : Vector UInt8 Monitor.mapperCount := Vector.replicate _ 0
  /-- The flash chip. -/
  chip : Monitor.Chip := .blank {}
  /-- The address of the next access. -/
  pointer : Nat := 0
  /-- The pointer is an address of the board. -/
  pointer_lt : pointer < Monitor.space := by decide
  /-- The number being received. -/
  digits : Nat := 0
  /-- Answers not yet taken. -/
  replies : Bytes := []
  /-- Use of the controls. -/
  controls : Monitor.Controls := {}
  /-- How the pointer goes on. -/
  advance : Monitor.Advance := .linear

namespace Monitor

/-- Number of addresses of a bank. -/
def bankSize : Nat := 0x10000

/-- Address of the first register of the memory mapper. -/
def mapperBase : Nat := 0x080000

/-- The register of the memory mapper at an address. -/
def register? (address : Nat) : Option (Fin mapperCount) :=
  if h : mapperBase ≤ address ∧ address - mapperBase < mapperCount then
    some ⟨address - mapperBase, h.2⟩
  else none

/-- The byte the board answers with at an address. -/
def load (m : Monitor) (address : Nat) : UInt8 :=
  match m.chip.part.offset? address with
  | some offset => m.chip.read offset
  | none =>
    match register? address with
    | some register => m.remap[register]
    | none => m.ram.getD address 0

/-- A byte put on the bus at an address. -/
def store (m : Monitor) (address : Nat) (value : UInt8) : Monitor :=
  let ⟨ram, remap, chip, pointer, pointer_lt, digits, replies, controls, advance⟩ := m
  match chip.part.offset? address with
  | some offset =>
    ⟨ram, remap, chip.write offset value, pointer, pointer_lt, digits, replies, controls, advance⟩
  | none =>
    match register? address with
    | some register =>
      ⟨ram, remap.set register value, chip, pointer, pointer_lt, digits, replies, controls, advance⟩
    | none =>
      ⟨ram.insert address value, remap, chip, pointer, pointer_lt, digits, replies, controls,
        advance⟩

/-- The address after another. -/
def Advance.next (a : Advance) (pointer : Nat) : Nat :=
  match a with
  | .linear => (pointer + 1) % space
  | .banked => pointer / bankSize * bankSize + (pointer + 1) % bankSize

theorem Advance.next_lt (a : Advance) {pointer : Nat} (h : pointer < space) :
    a.next pointer < space := by
  cases a with
  | linear => exact Nat.mod_lt _ (by decide)
  | banked =>
    have hb : pointer / bankSize < 0x100 := Nat.div_lt_of_lt_mul h
    have ho : (pointer + 1) % bankSize < bankSize := Nat.mod_lt _ (by decide)
    simp only [Advance.next, space, bankSize] at *
    omega

/-- The number being received with one more digit; it has 32 bits. -/
def pushDigit (m : Monitor) (d : Nat) : Monitor :=
  { m with digits := (16 * m.digits + d) % 0x100000000 }

/-- A number put before a mark is used up. -/
def clearDigits (m : Monitor) : Monitor := { m with digits := 0 }

/-- The pointer moved on. -/
def step (m : Monitor) : Monitor :=
  { m with
    pointer := m.advance.next m.pointer
    pointer_lt := m.advance.next_lt m.pointer_lt }

/-- The pointer at the start of a bank, by the bank's low eight bits. -/
def selectBank (m : Monitor) (bank : Nat) : Monitor :=
  { m with
    pointer := bank % 0x100 * bankSize
    pointer_lt := by
      have h : bank % 0x100 < 0x100 := Nat.mod_lt _ (by decide)
      simp only [space, bankSize]
      omega }

/-- The pointer at an offset in its bank, by the offset's low sixteen bits. -/
def setOffset (m : Monitor) (offset : Nat) : Monitor :=
  { m with
    pointer := m.pointer / bankSize * bankSize + offset % bankSize
    pointer_lt := by
      have hb : m.pointer / bankSize < 0x100 := Nat.div_lt_of_lt_mul m.pointer_lt
      have ho : offset % bankSize < bankSize := Nat.mod_lt _ (by decide)
      simp only [space, bankSize] at *
      omega }

/-- The byte at the pointer answered. -/
def answer (m : Monitor) : Monitor :=
  { m with replies := m.replies ++ (Hex.digits (m.load m.pointer).toNat 2).map Bytes.ofChar }

/-- A mark after a number. -/
def mark (m : Monitor) (number : Nat) (b : UInt8) : Monitor :=
  match b with
  | 0x3A => m.selectBank number
  | 0x23 => m.setOffset number
  | 0x21 => (m.store m.pointer (UInt8.ofNat number)).step
  | 0x40 => m.answer.step
  | 0x5D => { m with controls.stop := m.controls.stop + 1 }
  | 0x5B => { m with controls.go := m.controls.go + 1 }
  | 0x52 => { m with controls.reset := m.controls.reset + 1 }
  | 0x58 => { m with controls.step := m.controls.step + 1 }
  | _ => m

/-- A byte from the wire. -/
def receive (m : Monitor) (b : UInt8) : Monitor :=
  match Hex.digit? (Bytes.toChar b) with
  | some d => m.pushDigit d
  | none => m.clearDigits.mark m.digits b

/-- Bytes from the wire, first to last. -/
def receiveAll (m : Monitor) (bs : Bytes) : Monitor := bs.foldl receive m

/-- Answers taken into a buffer with some room. -/
def drain (m : Monitor) (room : Nat) : Bytes × Monitor :=
  (m.replies.take room, { m with replies := m.replies.drop room })

/-- What a byte from the wire gives reason to remark. -/
def remarkByte (m : Monitor) (b : UInt8) (log : Log) : Log :=
  if (Hex.digit? (Bytes.toChar b)).isSome then log
  else match b with
    | 0x21 =>
      let value := UInt8.ofNat m.digits
      let log := log.add .trace fun _ =>
        s!"monitor: {Hex.upper m.pointer 6} <- {Hex.byte value}"
      match m.chip.part.offset? m.pointer with
      | some offset => m.chip.remark offset value log
      | none => log
    | 0x3A | 0x23 | 0x40 | 0x5D | 0x5B | 0x52 | 0x58 => log
    | _ => log.add .trace fun _ => s!"monitor: ignoring 0x{Hex.lower b.toNat 2}"

/-- What bytes from the wire give reason to remark. -/
def remark (m : Monitor) (bs : Bytes) (log : Log) : Log :=
  match bs with
  | [] => log
  | [b] => m.remarkByte b log
  | b :: bs => (m.receive b).remark bs (m.remarkByte b log)

/-- Number of addresses a bus can name. -/
def busSpace : Nat := 0x100000000

/-- A byte put into memory past the chip's decoder and the mapper. -/
def pokeByte (m : Monitor) (address : Nat) (value : UInt8) : Monitor :=
  let ⟨ram, remap, chip, pointer, pointer_lt, digits, replies, controls, advance⟩ := m
  match chip.part.offset? address with
  | some offset =>
    ⟨ram, remap, chip.poke offset value, pointer, pointer_lt, digits, replies, controls, advance⟩
  | none =>
    ⟨ram.insert address value, remap, chip, pointer, pointer_lt, digits, replies, controls,
      advance⟩

/-- Bytes put into memory past the chip's decoder and the mapper. -/
def poke (m : Monitor) (address : Nat) (bs : Bytes) : Monitor :=
  (bs.foldl (fun (m, i) b => (m.pokeByte ((address + i) % busSpace) b, i + 1)) (m, 0)).1

/-- Bytes as the board answers with them, from an address on. -/
def peek (m : Monitor) (address count : Nat) : Bytes :=
  (List.range count).map fun i => m.load ((address + i) % busSpace)

end Monitor

instance : Link Monitor where
  write m bs := (.ok bs.length, m.receiveAll bs)
  read m room := let (bs, m) := m.drain room; (.ok bs, m)
  readWithin m room _ := let (bs, m) := m.drain room; (.ok bs, m)
  delay m _ := m
  remark := Monitor.remark
  read_length m room bs h := by cases h; exact List.length_take_le _ _

end BoardConsole
