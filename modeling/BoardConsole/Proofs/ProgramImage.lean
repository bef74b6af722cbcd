import BoardConsole.Proofs.Transfer
import Std.Data.TreeMap.Lemmas

/-!
# The image that programming leaves in memory

Outside the flash chip the board's memory is a plain one, in RAM and in the registers of the memory
mapper alike: an address answers with the byte stored last.  So an object file leaves in memory
exactly its own bytes, the later of two for the same address, and everything else stays.

- `Monitor.load_store`: the memory after a store outside the chip.
- `Monitor.load_stores`: after many of them, **the last write wins**.
- `Purpose.bytesAt`: the bytes of a file that go to an address of the board, in the file's order.
- `program_image`: the memory after a program command.
-/

namespace BoardConsole

open ObjectFile (Segment)

/-! ## Memory outside the chip -/

namespace Monitor

theorem register?_eq_some_iff {a : Nat} {r : Fin mapperCount} :
    register? a = some r ↔ a = mapperBase + r := by
  unfold register?
  split
  · rename_i h
    rw [Option.some.injEq, Fin.ext_iff]
    dsimp only
    omega
  · rename_i h
    constructor
    · intro hnone
      cases hnone
    · rintro rfl
      have := r.isLt
      exact absurd (by omega) h

theorem load_of_register {m : Monitor} {a : Nat} {r : Fin mapperCount}
    (h : m.chip.part.offset? a = none) (hr : register? a = some r) :
    m.load a = m.remap.get r := by
  simp only [load, h, hr]
  rfl

theorem load_of_ram {m : Monitor} {a : Nat} (h : m.chip.part.offset? a = none)
    (hr : register? a = none) : m.load a = m.ram.getD a 0 := by
  simp only [load, h, hr]

theorem load_of_chip {m : Monitor} {a o : Nat} (h : m.chip.part.offset? a = some o) :
    m.load a = m.chip.read o := by
  simp only [load, h]

/-- A store outside the chip leaves the chip alone. -/
theorem store_chip {m : Monitor} {a : Nat} (h : m.chip.part.offset? a = none) (v : UInt8) :
    (m.store a v).chip = m.chip := by
  cases hr : register? a with
  | some r => rw [store_of_register h hr]
  | none => rw [store_of_ram h hr]

/-- The memory after a store outside the chip. -/
theorem load_store {m : Monitor} {a : Nat} (h : m.chip.part.offset? a = none) (v : UInt8)
    (b : Nat) : (m.store a v).load b = if b = a then v else m.load b := by
  cases hb : m.chip.part.offset? b with
  | some o =>
    -- the chip answers, and it has not noticed the store
    have hne : b ≠ a := fun hba => by rw [hba, h] at hb; cases hb
    rw [if_neg hne, load_of_chip hb, load_of_chip (by rw [store_chip h]; exact hb), store_chip h]
  | none =>
    have hb' : (m.store a v).chip.part.offset? b = none := by rw [store_chip h]; exact hb
    cases hs : register? b with
    | some r' =>
      rw [load_of_register hb' hs, load_of_register hb hs]
      have hplace := register?_eq_some_iff.mp hs
      cases hr : register? a with
      | some r =>
        have ha := register?_eq_some_iff.mp hr
        rw [store_of_register h hr]
        -- two registers are the same one exactly if their addresses are
        by_cases hba : b = a
        · have hrr : r' = r := Fin.ext (by omega)
          rw [if_pos hba, hrr]
          exact Vector.getElem_set_self ..
        · have hrr : r.val ≠ r'.val := by omega
          rw [if_neg hba]
          exact Vector.getElem_set_ne r.isLt r'.isLt hrr
      | none =>
        have hba : b ≠ a := fun hba => by rw [hba, hr] at hs; cases hs
        rw [if_neg hba, store_of_ram h hr]
    | none =>
      rw [load_of_ram hb' hs, load_of_ram hb hs]
      cases hr : register? a with
      | some r =>
        have hba : b ≠ a := fun hba => by rw [hba, hr] at hs; cases hs
        rw [if_neg hba, store_of_register h hr]
      | none =>
        rw [store_of_ram h hr]
        dsimp only
        rw [Std.TreeMap.getD_insert]
        by_cases hba : b = a
        · rw [if_pos hba, if_pos (Nat.compare_eq_eq.mpr hba.symm)]
        · rw [if_neg hba, if_neg fun hcmp => hba (Nat.compare_eq_eq.mp hcmp).symm]

/-- The bytes that a sequence of stores puts at an address, first to last. -/
def storedAt (ws : List (Nat × UInt8)) (a : Nat) : Bytes :=
  ws.filterMap fun w => if w.1 = a then some w.2 else none

theorem storedAt_cons (w : Nat × UInt8) (ws : List (Nat × UInt8)) (a : Nat) :
    storedAt (w :: ws) a = if w.1 = a then w.2 :: storedAt ws a else storedAt ws a := by
  rw [storedAt, List.filterMap_cons]
  by_cases h : w.1 = a
  · rw [if_pos h, if_pos h]
    rfl
  · rw [if_neg h, if_neg h]
    rfl

/-- Stores outside the chip leave the chip alone. -/
theorem stores_chip (ws : List (Nat × UInt8)) {m : Monitor}
    (h : ∀ w ∈ ws, m.chip.part.offset? w.1 = none) : (m.stores ws).chip = m.chip := by
  induction ws generalizing m with
  | nil => rfl
  | cons w ws ih =>
    have hw := store_chip (h w (List.mem_cons_self ..)) w.2
    rw [stores_cons, ih fun w' hw' => ?_, hw]
    rw [hw]
    exact h w' (List.mem_cons_of_mem _ hw')

/-- **The last write wins**: outside the chip an address answers with the byte stored there last,
and with what it held before if there is none. -/
theorem load_stores (ws : List (Nat × UInt8)) {m : Monitor}
    (h : ∀ w ∈ ws, m.chip.part.offset? w.1 = none) (a : Nat) :
    (m.stores ws).load a = (storedAt ws a).getLast?.getD (m.load a) := by
  induction ws generalizing m with
  | nil => rfl
  | cons w ws ih =>
    have hw := h w (List.mem_cons_self ..)
    have hrest : ∀ w' ∈ ws, (m.store w.1 w.2).chip.part.offset? w'.1 = none := by
      intro w' hw'
      rw [store_chip hw]
      exact h w' (List.mem_cons_of_mem _ hw')
    rw [stores_cons, ih hrest, load_store hw, storedAt_cons]
    by_cases ha : w.1 = a
    · rw [if_pos ha, if_pos ha.symm, List.getLast?_cons, Option.getD_some]
    · rw [if_neg ha, if_neg (Ne.symm ha)]

end Monitor

/-! ## The memory after programming -/

namespace Debugger

open Monitor (space storedAt)

namespace Purpose

/-- The bytes of an object file that go to an address of the board, in the order of the file. -/
def bytesAt (p : Purpose) (segments : List Segment) (a : Nat) : Bytes :=
  storedAt ((p.cells segments).map fun cell => (cell.1 % space, cell.2)) a

/-- What programming stores at an address are the bytes of the file for it. -/
theorem storedAt_program (segments : List Segment) (a : Nat) :
    storedAt ((program.cells segments).flatMap program.cycles) a = program.bytesAt segments a := by
  rw [bytesAt, List.map_eq_flatMap]
  rfl

/-- The cells of a file, one by one. -/
theorem mem_cells_iff {p : Purpose} {segments : List Segment} {cell : Nat × UInt8} :
    cell ∈ p.cells segments ↔ ∃ s ∈ segments, ∃ i, ∃ h : i < s.data.length,
      cell = ((p.address s + i) % ObjectFile.addressSpace, s.data[i]) := by
  simp only [cells, cellsFrom, List.mem_flatMap, List.mem_mapIdx, eq_comm]

end Purpose

variable {loader : Loader} {words : List String} {file : String} {segments : List Segment}

/-- **The image of a program command.**  If no byte of the file is for the flash chip, then
afterwards every address of the board answers with the last byte of the file for it, and with what
it answered before if there is none; the chip is untouched, and success is the last thing said. -/
theorem program_image (s : Session Monitor)
    (hwords : Command.parse words = some (.transfer .program (some file)))
    (hload : loader.load file = .ok segments)
    (houtside : ∀ seg ∈ segments, ∀ i < seg.data.length,
      s.link.chip.part.offset? ((seg.address + i) % space) = none) :
    (∀ a < space, (s.dispatch loader words).link.peek a 1
        = [(Purpose.program.bytesAt segments a).getLast?.getD (s.link.load a)]) ∧
      (s.dispatch loader words).link.chip = s.link.chip ∧
      (s.dispatch loader words).transcript.back? = some (.line "Program complete!") := by
  have hprepare : Procedure.run Purpose.program.prepare (s.link.halted.pointAt s.link.pointer)
      = ⟨(), s.link.halted.pointAt s.link.pointer, [], []⟩ := rfl
  obtain ⟨c, told, sent, hrun⟩ := Purpose.run_transfer_writes rfl segments hprepare
  obtain ⟨hboard, htranscript⟩ := s.dispatch_transfer_monitor hwords hload
  rw [hrun] at hboard htranscript
  -- an address that wraps in an object file wraps to the same one of the board
  have houtside' : ∀ w ∈ (Purpose.program.cells segments).flatMap Purpose.program.cycles,
      s.link.halted.chip.part.offset? w.1 = none := by
    intro w hw
    obtain ⟨cell, hcell, hw⟩ := List.mem_flatMap.mp hw
    obtain ⟨seg, hseg, i, hi, rfl⟩ := Purpose.mem_cells_iff.mp hcell
    obtain rfl := List.mem_singleton.mp hw
    show s.link.chip.part.offset? ((seg.address + i) % ObjectFile.addressSpace % space) = none
    rw [Purpose.mod_addressSpace]
    exact houtside seg hseg i hi
  refine ⟨fun a ha => ?_, ?_, ?_⟩
  · have hpeek : (s.dispatch loader words).link.peek a 1
        = [(s.dispatch loader words).link.load a] := by
      show [(s.dispatch loader words).link.load ((a + 0) % Monitor.busSpace)] = _
      rw [Nat.add_zero, Nat.mod_eq_of_lt (Nat.lt_trans ha (by decide))]
    rw [hpeek, hboard, Monitor.pointAt_load, Monitor.load_stores _ houtside',
      Purpose.storedAt_program]
    rfl
  · rw [hboard, Monitor.pointAt_chip, Monitor.stores_chip _ houtside']
    rfl
  · exact Session.back?_of_told htranscript

/-- Overlapping segments, one of which crosses a bank and one the end of the board's memory. -/
theorem program_image_overlap :
    let segments : List Segment := [⟨0x1FFFE, [1, 2, 3]⟩, ⟨0xFFFFFF, [4, 5]⟩, ⟨0x20000, [6]⟩]
    let after := (⟨{}, ⟨0⟩, #[], .quiet⟩ : Session Monitor).dispatch (.fixed segments)
      ["program", "a"]
    after.link.peek 0x20000 1 = [6] ∧ after.link.peek 0 1 = [5] ∧
      after.link.chip = .blank {} ∧ after.transcript.back? = some (.line "Program complete!") := by
  intro segments after
  have hwords : Command.parse ["program", "a"] = some (.transfer .program (some "a")) := by
    decide +kernel
  have hload : (Loader.fixed segments).load "a" = .ok segments := rfl
  obtain ⟨himage, hchip, hlast⟩ := program_image ⟨{}, ⟨0⟩, #[], .quiet⟩ hwords hload (by decide)
  refine ⟨?_, ?_, hchip, hlast⟩
  · rw [himage _ (by decide)]
    rfl
  · rw [himage _ (by decide)]
    rfl

end Debugger

end BoardConsole
