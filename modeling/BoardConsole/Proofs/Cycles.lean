import BoardConsole.Proofs.Transfer
import Mathlib.Data.List.Forall2

/-!
# Command sequences on the chip

A store inside the chip is a write cycle, and a chip that follows no command takes a whole sequence
of cycles as one operation.  The sequences reach the chip because it fills whole banks: the unlock
offsets of a bank are inside the chip whenever any address of the bank is.

- `Part.FillsBanks`: chips that fill banks of the window that the flash commands mean.
- `Chip.programmed`, `Chip.wiped`: what the sequences do to the contents.
- `stores_programCycles`, `stores_wipeCycles`: **the sequences as single operations**.
-/

namespace BoardConsole.Monitor

open Debugger.Procedure

/-! ## Where the chip is -/

/-- The chip fills banks of the window that the flash commands mean, from its first one on. -/
structure Part.FillsBanks (p : Part) : Prop where
  base : p.base = 0x200000
  pos : 0 < p.size
  whole : p.size % 0x10000 = 0
  le : p.size ≤ 0x100000

theorem Part.offset?_eq_some_iff {p : Part} {a o : Nat} :
    p.offset? a = some o ↔ a = p.base + o ∧ o < p.size := by
  unfold offset?
  split
  · rw [Option.some.injEq]
    omega
  · constructor
    · intro hnone
      cases hnone
    · rintro ⟨rfl, ho⟩
      omega

namespace Part.FillsBanks

variable {p : Part}

/-- An address of the chip is one of the board, and of an object file. -/
theorem mod_eq (h : p.FillsBanks) {a o : Nat} (ha : p.offset? a = some o) :
    a % ObjectFile.addressSpace % space = a := by
  obtain ⟨hbase, -, -, hle⟩ := h
  obtain ⟨rfl, ho⟩ := offset?_eq_some_iff.mp ha
  simp only [ObjectFile.addressSpace, space]
  omega

/-- With one address of a bank the chip answers to all of them, and the low bits of the offsets are
those of the addresses. -/
theorem offset?_inBank (h : p.FillsBanks) {a o : Nat} (ha : p.offset? a = some o) (x : Nat) :
    ∃ o', p.offset? (inBank (a / bankSize) x) = some o' ∧ o' % 0x8000 = x % 0x8000 := by
  obtain ⟨hbase, -, hwhole, -⟩ := h
  obtain ⟨rfl, ho⟩ := offset?_eq_some_iff.mp ha
  -- base and size are whole banks, so the bank of the offset is the bank of the address
  refine ⟨o / bankSize * bankSize + x % bankSize, offset?_eq_some_iff.mpr ⟨?_, ?_⟩, ?_⟩
  · simp only [inBank, bankSize, hbase]
    omega
  · simp only [bankSize]
    omega
  · simp only [bankSize]
    omega

/-- The chip answers to the first address of the window. -/
theorem offset?_first (h : p.FillsBanks) : p.offset? 0x200000 = some 0 :=
  offset?_eq_some_iff.mpr ⟨h.base.symm, h.pos⟩

end Part.FillsBanks

/-! ## Cycles of the decoder -/

namespace Chip

@[simp] theorem write_part (c : Chip) (o : Nat) (v : UInt8) : (c.write o v).part = c.part := by
  simp only [write]
  split <;> rfl

/-- A cycle that carries a command on. -/
theorem write_of_follow {c : Chip} {o : Nat} {v : UInt8} {next : Decoder}
    (h : c.state.decode o v = .follow next) : c.write o v = { c with state := next } := by
  simp only [write, h]

/-- A value programmed at an offset: bits are cleared and none is set. -/
def programmed (c : Chip) (o : Nat) (v : UInt8) : Chip :=
  { c with
    data := c.data.modify o (· &&& v)
    size_data := Array.size_modify.trans c.size_data
    state := .read }

/-- Everything erased. -/
def wiped (c : Chip) : Chip :=
  { c with
    data := Array.replicate c.data.size erased
    size_data := Array.size_replicate.trans c.size_data
    state := .read }

/-- Write cycles one after another. -/
def writes (c : Chip) (ws : List (Nat × UInt8)) : Chip := ws.foldl (fun c w => c.write w.1 w.2) c

theorem writes_cons (c : Chip) (w : Nat × UInt8) (ws : List (Nat × UInt8)) :
    c.writes (w :: ws) = (c.write w.1 w.2).writes ws := rfl

variable {c : Chip} {o₁ o₂ : Nat} (h₁ : o₁ % 0x8000 = unlockFirst) (h₂ : o₂ % 0x8000 = unlockSecond)
include h₁ h₂

/-- An unlock opens a command. -/
theorem writes_unlock (hstate : c.state = .read) :
    c.writes [(o₁, 0xAA), (o₂, 0x55)] = { c with state := .unlocked2 } := by
  have hfirst : c.write o₁ 0xAA = { c with state := .unlocked1 } :=
    write_of_follow (by rw [hstate]; simp only [Decoder.decode, h₁, and_self, if_true])
  show (c.write o₁ 0xAA).write o₂ 0x55 = _
  rw [hfirst]
  exact write_of_follow (by simp only [Decoder.decode, h₂, and_self, if_true])

/-- An unlock opens the second half of an erase command. -/
theorem writes_unlock_erase (hstate : c.state = .eraseSetup) :
    c.writes [(o₁, 0xAA), (o₂, 0x55)] = { c with state := .eraseUnlocked2 } := by
  have hfirst : c.write o₁ 0xAA = { c with state := .eraseUnlocked1 } :=
    write_of_follow (by rw [hstate]; simp only [Decoder.decode, h₁, and_self, if_true])
  show (c.write o₁ 0xAA).write o₂ 0x55 = _
  rw [hfirst]
  exact write_of_follow (by simp only [Decoder.decode, h₂, and_self, if_true])

/-- The sequence that programs a value. -/
theorem writes_program (hstate : c.state = .read) (o : Nat) (v : UInt8) :
    c.writes [(o₁, 0xAA), (o₂, 0x55), (o₁, 0xA0), (o, v)] = c.programmed o v := by
  have hcommand : ({ c with state := .unlocked2 } : Chip).write o₁ 0xA0
      = { c with state := .program } :=
    write_of_follow (by simp only [Decoder.decode, h₁, and_self, if_true])
  show ((c.writes [(o₁, 0xAA), (o₂, 0x55)]).write o₁ 0xA0).write o v = _
  rw [writes_unlock h₁ h₂ hstate, hcommand]
  rfl

/-- The sequence that opens the commands that erase. -/
theorem writes_eraseSetup (hstate : c.state = .read) :
    c.writes [(o₁, 0xAA), (o₂, 0x55), (o₁, 0x80), (o₁, 0xAA), (o₂, 0x55)]
      = { c with state := .eraseUnlocked2 } := by
  have hcommand : ({ c with state := .unlocked2 } : Chip).write o₁ 0x80
      = { c with state := .eraseSetup } := by
    refine write_of_follow ?_
    simp only [Decoder.decode, h₁, and_true, true_and]
    rfl
  show ((c.writes [(o₁, 0xAA), (o₂, 0x55)]).write o₁ 0x80).writes [(o₁, 0xAA), (o₂, 0x55)] = _
  rw [writes_unlock h₁ h₂ hstate, hcommand, writes_unlock_erase h₁ h₂ rfl]

/-- The sequence that erases everything. -/
theorem writes_wipe (hstate : c.state = .read) :
    c.writes [(o₁, 0xAA), (o₂, 0x55), (o₁, 0x80), (o₁, 0xAA), (o₂, 0x55), (o₁, 0x10)]
      = c.wiped := by
  have hcommand : Decoder.eraseUnlocked2.decode o₁ 0x10 = .eraseChip := by
    simp only [Decoder.decode, h₁, and_self, if_true]
  show (c.writes [(o₁, 0xAA), (o₂, 0x55), (o₁, 0x80), (o₁, 0xAA), (o₂, 0x55)]).write o₁ 0x10 = _
  rw [writes_eraseSetup h₁ h₂ hstate]
  simp only [write, hcommand]
  rfl

end Chip

/-! ## Sequences on the bus -/

/-- Stores inside the chip are write cycles. -/
theorem stores_of_chip {m : Monitor} {ws vs : List (Nat × UInt8)}
    (h : List.Forall₂ (fun w v => m.chip.part.offset? w.1 = some v.1 ∧ w.2 = v.2) ws vs) :
    m.stores ws = { m with chip := m.chip.writes vs } := by
  -- the induction changes the chip but never its kind
  generalize hpart : m.chip.part = part at h
  induction h generalizing m with
  | nil => rfl
  | @cons w v ws vs hw _ ih =>
    have hstore := store_of_chip (m := m) (hpart ▸ hw.1) w.2
    rw [stores_cons, ih (by rw [hstore, Chip.write_part, hpart]), hstore, Chip.writes_cons, hw.2]

variable {m : Monitor} (hpart : m.chip.part.FillsBanks) (hstate : m.chip.state = .read)
include hpart hstate

/-- **Programming is one operation**: the sequence for a byte inside the chip programs it, from a
chip that follows no command. -/
theorem stores_programCycles {a o : Nat} (ha : m.chip.part.offset? (a % space) = some o)
    (v : UInt8) : m.stores (programCycles a v) = { m with chip := m.chip.programmed o v } := by
  obtain ⟨o₁, ho₁, h₁⟩ := hpart.offset?_inBank ha 0x5555
  obtain ⟨o₂, ho₂, h₂⟩ := hpart.offset?_inBank ha 0x2AAA
  rw [← Chip.writes_program h₁ h₂ hstate]
  exact stores_of_chip (.cons ⟨ho₁, rfl⟩ (.cons ⟨ho₂, rfl⟩ (.cons ⟨ho₁, rfl⟩
    (.cons ⟨ha, rfl⟩ .nil))))

/-- **Erasing is one operation**: the sequence in the chip's first bank erases everything, from a
chip that follows no command. -/
theorem stores_wipeCycles :
    m.stores (wipeCycles Debugger.flashBank) = { m with chip := m.chip.wiped } := by
  obtain ⟨o₁, ho₁, h₁⟩ := hpart.offset?_inBank hpart.offset?_first 0x5555
  obtain ⟨o₂, ho₂, h₂⟩ := hpart.offset?_inBank hpart.offset?_first 0x2AAA
  rw [← Chip.writes_wipe h₁ h₂ hstate]
  exact stores_of_chip (.cons ⟨ho₁, rfl⟩ (.cons ⟨ho₂, rfl⟩ (.cons ⟨ho₁, rfl⟩ (.cons ⟨ho₁, rfl⟩
    (.cons ⟨ho₂, rfl⟩ (.cons ⟨ho₁, rfl⟩ .nil))))))

end BoardConsole.Monitor
