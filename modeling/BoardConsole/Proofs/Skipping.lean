import BoardConsole.Proofs.Commands
import BoardConsole.Proofs.FlashImage
import BoardConsole.Proofs.Framing

/-!
# Erased bytes left out

A byte of all ones is not programmed when a file is flashed, so whole sequences are missing from
what the chip is sent, and the pointer takes other ways.  Nothing of it is left in the end, whatever
the chip was doing before and whether or not it was erased.

- `flashSkipping`: a file flashed with certain bytes left out, and `flashEveryByte`.
- `Purpose.flash_transfer_eq`: the flash command is one of these.
- `run_flashSkipping`: the stores that each of them amounts to.
- `Monitor.stores_wipeCycles_idle`: **the sequence that erases ends with no command followed**, from
  any state of the chip.
- `Session.flash_as_every_byte`: flashing with and without them.
-/

namespace BoardConsole

/-! ## What the chip makes of it -/

namespace Monitor

/-- A chip erase opens no command, whatever the chip follows. -/
theorem Decoder.decode_chipErase_ne_follow (s : Decoder) (o : Nat) (next : Decoder) :
    s.decode o 0x10 ≠ .follow next := by
  intro hfollow
  have hmeant := meant_decode s o 0x10
  rw [hfollow] at hmeant
  obtain ⟨cycle, htrail, -, hvalue⟩ := hmeant
  have hopening : ∀ cycle ∈ next.trail, (0x10 : UInt8) ≠ cycle.2 := by
    cases next <;> decide
  refine hopening cycle ?_ hvalue
  rw [htrail]
  exact List.mem_append_right _ (List.mem_singleton.mpr rfl)

/-- A chip erase ends the command that is followed, as the one that it completes or not. -/
theorem Chip.state_write_chipErase (c : Chip) (o : Nat) : (c.write o 0x10).state = .read :=
  (c.state_write o 0x10).resolve_left (Decoder.decode_chipErase_ne_follow _ o _)

theorem store_part (m : Monitor) (a : Nat) (v : UInt8) :
    (m.store a v).chip.part = m.chip.part := by
  cases h : m.chip.part.offset? a with
  | none => rw [store_chip h]
  | some o => rw [store_of_chip h, Chip.write_part]

theorem stores_part (m : Monitor) (ws : List (Nat × UInt8)) :
    (m.stores ws).chip.part = m.chip.part := by
  induction ws generalizing m with
  | nil => rfl
  | cons w ws ih => rw [stores_cons, ih, store_part]

open Debugger (flashBank)
open Debugger.Procedure

/-- **After the sequence that erases, the chip follows no command**, from any state: if the erase
did not take effect, its last cycle has ended whatever was followed instead. -/
theorem stores_wipeCycles_idle {m : Monitor} (hpart : m.chip.part.FillsBanks) :
    (m.stores (wipeCycles flashBank)).chip.state = .read := by
  obtain ⟨o, ho, -⟩ := hpart.offset?_inBank hpart.offset?_first 0x5555
  have hlast : (m.stores (eraseCycles flashBank)).chip.part.offset? (inBank flashBank 0x5555)
      = some o := by
    rw [stores_part]
    exact ho
  rw [wipeCycles, stores_append, stores_cons, stores_nil, store_of_chip hlast]
  exact Chip.state_write_chipErase ..

end Monitor

namespace Debugger

open ObjectFile (Segment addressSpace)
open Monitor (cyclesSkipping)
open Procedure
open Purpose (flash)

/-! ## Flashing with bytes left out -/

section

variable (skips : UInt8 → Bool)

/-- A byte programmed, unless it is one to leave out. -/
def flashByte (address : Nat) (b : UInt8) : Procedure Unit :=
  if skips b then pure () else programByte address b

/-- The bytes of a segment from one on, with certain bytes left out. -/
def flashBytes (base total : Nat) : Nat → Bytes → Procedure Unit
  | _, [] => pure ()
  | index, b :: rest => do
    flash.report index total
    flash.aim base index
    flashByte skips ((base + index) % addressSpace) b
    flashBytes base total (index + 1) rest

/-- Segments one after another, counted from a number, with certain bytes left out. -/
def flashSegments : Nat → List Segment → Procedure Unit
  | _, [] => pure ()
  | number, s :: rest => do
    say (flash.announcement number s)
    flash.point (flash.address s)
    flashBytes skips (flash.address s) s.data.length 0 s.data
    say "Segment complete!"
    flashSegments (number + 1) rest

/-- An object file flashed with certain bytes left out. -/
def flashSkipping (segments : List Segment) : Procedure Unit := do
  halt
  flash.prepare
  flashSegments skips 0 segments
  say flash.completion

end

/-- An object file flashed with every byte programmed. -/
def flashEveryByte (segments : List Segment) : Procedure Unit :=
  flashSkipping (fun _ => false) segments

namespace Purpose

theorem flash_bytes_eq (base total : Nat) (data : Bytes) (index : Nat) :
    flash.bytes base total index data
      = flashBytes (· == 0xFF) base total index data >>= fun _ => pure .onward := by
  induction data generalizing index with
  | nil => rfl
  | cons b rest ih =>
    have hbyte : ∀ address, flash.byte address b
        = flashByte (· == 0xFF) address b >>= fun _ => pure .onward := by
      intro address
      simp only [byte, flashByte, beq_iff_eq]
      split <;> rfl
    simp only [bytes_cons, flashBytes, hbyte, Plan.bind_bind, ih]
    rfl

theorem flash_segments_eq (segments : List Segment) (number : Nat) :
    flash.segments number segments
      = flashSegments (· == 0xFF) number segments >>= fun _ => pure .onward := by
  induction segments generalizing number with
  | nil => rfl
  | cons s rest ih =>
    simp only [segments_cons, segment, flashSegments, flash_bytes_eq, Plan.bind_bind, ih]
    rfl

/-- The flash command leaves the erased bytes out, and differs in nothing else from the one that
programs every byte. -/
theorem flash_transfer_eq (segments : List Segment) :
    flash.transfer segments = flashSkipping (· == 0xFF) segments := by
  simp only [transfer_eq, flashSkipping, flash_segments_eq, Plan.bind_bind]
  rfl

end Purpose

/-! ## What reaches the board -/

section

variable (skips : UInt8 → Bool)

/-- A byte handled, with the pointer ready for the next address of the bank. -/
theorem run_flashByte (m : Monitor) {c base index : Nat} (h : flash.Aimed c (base + index))
    (b : UInt8) :
    ∃ c' sent, run (flashByte skips ((base + index) % addressSpace) b) (m.pointAt c)
        = ⟨(), (m.stores (cyclesSkipping skips ((base + index) % addressSpace, b))).pointAt c', [],
          sent⟩ ∧
      flash.Ready base (index + 1) c' := by
  rw [flashByte, cyclesSkipping]
  split
  · exact ⟨c, [], rfl, Purpose.ready_of_flash_aimed h⟩
  · exact Purpose.run_programByte_ready m h b

/-- Bytes handled, by induction on what is left of them; the pointer is ready before each. -/
theorem run_flashBytes (base total : Nat) (data : Bytes) (index : Nat) (m : Monitor) {c : Nat}
    (h : flash.Ready base index c) :
    ∃ c' told sent, run (flashBytes skips base total index data) (m.pointAt c)
      = ⟨(), (m.stores ((Purpose.cellsFrom (base + index) data).flatMap
          (cyclesSkipping skips))).pointAt c', told, sent⟩ := by
  induction data generalizing index m c with
  | nil => exact ⟨c, [], [], rfl⟩
  | cons b rest ih =>
    obtain ⟨told₁, h₁⟩ := flash.run_report index total (m.pointAt c)
    obtain ⟨c₂, h₂, haimed⟩ := flash.run_aim h m
    obtain ⟨c₃, sent₃, h₃, hready⟩ := run_flashByte skips m haimed b
    obtain ⟨c₄, told₄, sent₄, h₄⟩ := ih (index + 1) _ hready
    rw [Purpose.cellsFrom_cons, List.flatMap_cons, Monitor.stores_append]
    exact ⟨c₄, _, _, run_bind_of h₁ (run_bind_of h₂ (run_bind_of h₃ h₄))⟩

theorem run_flashSegments (segments : List Segment) (number : Nat) (m : Monitor) (c : Nat) :
    ∃ c' told sent, run (flashSegments skips number segments) (m.pointAt c)
      = ⟨(), (m.stores ((flash.cells segments).flatMap (cyclesSkipping skips))).pointAt c', told,
        sent⟩ := by
  induction segments generalizing number m c with
  | nil => exact ⟨c, [], [], rfl⟩
  | cons s rest ih =>
    obtain ⟨c₁, h₁, haimed⟩ := flash.run_point (flash.address s) (m.pointAt c)
    obtain ⟨c₂, told₂, sent₂, h₂⟩ := run_flashBytes skips (flash.address s) s.data.length s.data 0
      m (c := c₁) (.inr haimed)
    obtain ⟨c₃, told₃, sent₃, h₃⟩ := ih (number + 1) _ c₂
    rw [Purpose.cells_cons, List.flatMap_append, Monitor.stores_append]
    exact ⟨c₃, _, _, run_bind_of (run_say ..) (run_bind_of h₁ (run_bind_of h₂
      (run_bind_of (run_say ..) h₃)))⟩

/-- **Flashing is the sequence that erases and then the stores of the bytes that are not left
out**, in whatever state the board is. -/
theorem run_flashSkipping (segments : List Segment) (m : Monitor) :
    ∃ c told sent, run (flashSkipping skips segments) m
      = ⟨(), ((m.halted.halted.stores (wipeCycles flashBank)).stores
          ((flash.cells segments).flatMap (cyclesSkipping skips))).pointAt c, told, sent⟩ := by
  obtain ⟨c₁, told₁, sent₁, h₁⟩ := Purpose.run_flash_prepare m
  obtain ⟨c₂, told₂, sent₂, h₂⟩ := run_flashSegments skips segments 0
    (m.halted.halted.stores (wipeCycles flashBank)) c₁
  exact ⟨c₂, _, _, run_bind_of (run_halt m) (run_bind_of h₁ (run_bind_of h₂ (run_say ..)))⟩

end

namespace Session

variable {loader : Loader} {words : List String} {file : String} {segments : List Segment}

/-- **Leaving the erased bytes out is not noticed.**  On a chip that fills banks of the window,
whatever it holds, shows and is doing, and so also where it is not erased, flashing a file whose
bytes are for the chip leaves the same RAM, registers and chip as programming every byte of it. -/
theorem flash_as_every_byte (s : Session Monitor) (hpart : s.link.chip.part.FillsBanks)
    (hwords : Command.parse words = some (.transfer .flash (some file)))
    (hload : loader.load file = .ok segments)
    (hin : ∀ seg ∈ segments, ∀ i < seg.data.length,
      (s.link.chip.part.offset? (flashAddress seg.address + i)).isSome) :
    let flashed := s.dispatch loader words
    let programmed := (s.perform (flashEveryByte segments)).2
    flashed.link.ram = programmed.link.ram ∧ flashed.link.remap = programmed.link.remap ∧
      flashed.link.chip = programmed.link.chip := by
  intro flashed programmed
  obtain ⟨hflashed, -⟩ := s.dispatch_transfer_monitor hwords hload
  obtain ⟨-, hprogrammed, -⟩ := perform_run_monitor (flashEveryByte segments) s
  obtain ⟨c, told, sent, hrun⟩ := run_flashSkipping (· == 0xFF) segments s.link
  obtain ⟨c', told', sent', hrun'⟩ := run_flashSkipping (fun _ => false) segments s.link
  rw [Purpose.flash_transfer_eq, hrun] at hflashed
  rw [flashEveryByte, hrun'] at hprogrammed
  -- both go on from the board that the erase has left, erased or not
  generalize hwiped : s.link.halted.halted.stores (wipeCycles flashBank) = m at *
  have hkind : m.chip.part = s.link.chip.part := by
    rw [← hwiped]
    exact Monitor.stores_part ..
  have hidle : m.chip.state = .read := by
    rw [← hwiped]
    exact Monitor.stores_wipeCycles_idle hpart
  rw [← hkind] at hpart hin
  have hcells := Purpose.cells_inChip hpart hin
  have hskips : ∀ b : UInt8, (b == 0xFF) = true → b = 0xFF := fun _ => eq_of_beq
  rw [Purpose.stores_skipping _ hskips _ hpart hidle hcells] at hflashed
  have hnone : ∀ b : UInt8, false = true → b = 0xFF := fun _ h => absurd h Bool.false_ne_true
  rw [Purpose.stores_skipping _ hnone _ hpart hidle hcells] at hprogrammed
  rw [show flashed.link = _ from hflashed, show programmed.link = _ from hprogrammed]
  exact ⟨rfl, rfl, rfl⟩

/-- Erased bytes at the end of a bank and after it, for a chip of zeros that is about to program a
value and shows its identity, so that it is not erased. -/
theorem flash_as_every_byte_not_erased :
    let segments : List Segment := [⟨0xFFFE, [0xFF, 0xFF, 0xFF, 7]⟩, ⟨0x11FFFF, [0xFF]⟩]
    let chip : Monitor.Chip :=
      { (Monitor.Chip.blank {}).fill 0 with state := .program, showsIdentity := true }
    let s : Session Monitor := ⟨{ chip }, ⟨0⟩, #[], .quiet⟩
    s.link.chip.part.FillsBanks ∧
      Command.parse ["flash", "a"] = some (.transfer .flash (some "a")) ∧
      (s.dispatch (.fixed segments) ["flash", "a"]).link.chip
        = (s.perform (flashEveryByte segments)).2.link.chip := by
  intro segments chip s
  have hpart : s.link.chip.part.FillsBanks := ⟨rfl, by decide, by decide, by decide⟩
  have hwords : Command.parse ["flash", "a"] = some (.transfer .flash (some "a")) := by
    decide +kernel
  have hload : (Loader.fixed segments).load "a" = .ok segments := rfl
  have hin : ∀ seg ∈ segments, ∀ i < seg.data.length,
      (s.link.chip.part.offset? (flashAddress seg.address + i)).isSome := by
    decide +kernel
  obtain ⟨-, -, hchip⟩ := s.flash_as_every_byte hpart hwords hload hin
  exact ⟨hpart, hwords, hchip⟩

end Session

end Debugger

end BoardConsole
