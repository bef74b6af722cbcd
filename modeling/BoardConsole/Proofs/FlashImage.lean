import BoardConsole.Proofs.Cycles
import BoardConsole.Proofs.ProgramImage
import BoardConsole.Proofs.Verification

/-!
# The image that flashing leaves in the chip

Each byte of a file is programmed by a sequence that the chip takes as one operation, and a byte
that is not programmed would have cleared no bit.  So an erased chip ends up with the conjunction
of the bytes for each offset, in whatever order they came.

- `Chip.programs`: values programmed one after another, and `getElem?_programs`, **what is left at
  an offset is the conjunction of everything programmed there**.
- `stores_skipping`, `stores_flash`: the bytes of a file on the bus are those values in the chip,
  and **an erased byte left out is an erased byte programmed**.
- `flash_image`: the chip after a flash command, and the verification that follows.
-/

namespace BoardConsole

open ObjectFile (Segment addressSpace)

namespace Monitor

/-! ## Many values programmed -/

namespace Chip

/-- Values programmed one after another. -/
def programs (c : Chip) (ws : List (Nat × UInt8)) : Chip :=
  ws.foldl (fun c w => c.programmed w.1 w.2) c

theorem programs_cons (c : Chip) (w : Nat × UInt8) (ws : List (Nat × UInt8)) :
    c.programs (w :: ws) = (c.programmed w.1 w.2).programs ws := rfl

/-- An erased byte clears no bit. -/
theorem and_erased (b : UInt8) : b &&& erased = b := UInt8.and_neg_one

/-- Programming an erased byte is doing nothing. -/
theorem programmed_erased {c : Chip} (hstate : c.state = .read) (o : Nat) :
    c.programmed o erased = c := by
  have hdata : c.data.modify o (· &&& erased) = c.data := by
    refine Array.ext (Array.size_modify ..) fun i _ _ => ?_
    rw [Array.getElem_modify]
    split
    · exact and_erased _
    · rfl
  obtain ⟨part, data, size_data, state, showsIdentity⟩ := c
  obtain rfl : state = .read := hstate
  simp only [programmed, hdata]

/-- Programming changes the contents only. -/
theorem programs_frame (ws : List (Nat × UInt8)) {c : Chip} (hstate : c.state = .read) :
    (c.programs ws).part = c.part ∧ (c.programs ws).state = .read ∧
      (c.programs ws).showsIdentity = c.showsIdentity := by
  induction ws generalizing c with
  | nil => exact ⟨rfl, hstate, rfl⟩
  | cons w ws ih => exact ih (c := c.programmed w.1 w.2) rfl

/-- **What is left at an offset is the conjunction** of what was there and of everything programmed
there. -/
theorem getElem?_programs (ws : List (Nat × UInt8)) (c : Chip) (o : Nat) :
    (c.programs ws).data[o]? = c.data[o]?.map fun b => (storedAt ws o).foldl (· &&& ·) b := by
  induction ws generalizing c with
  | nil => exact Option.map_id'.symm
  | cons w ws ih =>
    have hdata : (c.programmed w.1 w.2).data[o]?
        = if w.1 = o then c.data[o]?.map (· &&& w.2) else c.data[o]? := Array.getElem?_modify
    rw [programs_cons, ih, hdata, storedAt_cons]
    by_cases ho : w.1 = o
    · rw [if_pos ho, if_pos ho, Option.map_map]
      rfl
    · rw [if_neg ho, if_neg ho]

theorem getElem?_wiped (c : Chip) {o : Nat} (h : o < c.part.size) :
    c.wiped.data[o]? = some erased := by
  rw [wiped, Array.getElem?_replicate, if_pos (c.size_data.symm ▸ h)]

end Chip

/-! ## Bytes left out -/

open Debugger.Procedure

/-- The stores that programming a byte amounts to if certain bytes are left out. -/
def cyclesSkipping (skips : UInt8 → Bool) (cell : Nat × UInt8) : List (Nat × UInt8) :=
  if skips cell.2 then [] else programCycles cell.1 cell.2

/-- **A byte left out is a byte programmed**, if only erased ones are left out. -/
theorem stores_cyclesSkipping (skips : UInt8 → Bool) (hskips : ∀ b, skips b = true → b = 0xFF)
    {m : Monitor} (hpart : m.chip.part.FillsBanks) (hstate : m.chip.state = .read)
    {cell : Nat × UInt8} {o : Nat} (ho : m.chip.part.offset? (cell.1 % space) = some o) :
    m.stores (cyclesSkipping skips cell) = { m with chip := m.chip.programmed o cell.2 } := by
  rw [cyclesSkipping]
  split
  · rename_i hskip
    rw [hskips _ hskip]
    show m = { m with chip := m.chip.programmed o erased }
    rw [Chip.programmed_erased hstate]
  · exact stores_programCycles hpart hstate ho _

end Monitor

namespace Debugger

open Monitor (space storedAt)
open Procedure

/-! ## The bytes of a file in the chip -/

namespace Purpose

/-- The bytes for an offset are those for its address. -/
theorem storedAt_offset (part : Monitor.Part) (cells : List (Nat × UInt8))
    (hin : ∀ cell ∈ cells, (part.offset? (cell.1 % space)).isSome) (o : Nat) :
    storedAt (cells.map fun cell => (cell.1 % space - part.base, cell.2)) o
      = storedAt (cells.map fun cell => (cell.1 % space, cell.2)) (part.base + o) := by
  induction cells with
  | nil => rfl
  | cons cell cells ih =>
    obtain ⟨hcell, hcells⟩ := List.forall_mem_cons.mp hin
    obtain ⟨x, hx⟩ := Option.isSome_iff_exists.mp hcell
    obtain ⟨ha, -⟩ := Monitor.Part.offset?_eq_some_iff.mp hx
    have hiff : cell.1 % space - part.base = o ↔ cell.1 % space = part.base + o := by omega
    rw [List.map_cons, List.map_cons, Monitor.storedAt_cons, Monitor.storedAt_cons, ih hcells]
    simp only [hiff]

/-- **The bytes of a file are programmed into the chip**, by induction on them: the chip follows no
command between two bytes, so whether an erased one is left out makes no difference to the others. -/
theorem stores_skipping (skips : UInt8 → Bool) (hskips : ∀ b, skips b = true → b = 0xFF)
    (cells : List (Nat × UInt8)) {m : Monitor} (hpart : m.chip.part.FillsBanks)
    (hstate : m.chip.state = .read)
    (hin : ∀ cell ∈ cells, (m.chip.part.offset? (cell.1 % space)).isSome) :
    m.stores (cells.flatMap (Monitor.cyclesSkipping skips))
      = { m with
          chip := m.chip.programs
            (cells.map fun cell => (cell.1 % space - m.chip.part.base, cell.2)) } := by
  induction cells generalizing m with
  | nil => rfl
  | cons cell cells ih =>
    obtain ⟨hcell, hcells⟩ := List.forall_mem_cons.mp hin
    obtain ⟨o, ho⟩ := Option.isSome_iff_exists.mp hcell
    have hoffset : cell.1 % space - m.chip.part.base = o := by
      have := (Monitor.Part.offset?_eq_some_iff.mp ho).1
      omega
    have hbyte := Monitor.stores_cyclesSkipping skips hskips hpart hstate ho
    have hrest := ih (m := { m with chip := m.chip.programmed o cell.2 }) hpart rfl hcells
    rw [List.flatMap_cons, Monitor.stores_append, hbyte, hrest, List.map_cons,
      Monitor.Chip.programs_cons, hoffset]
    rfl

/-- The flash command leaves the erased bytes out. -/
theorem flash_cycles_eq : flash.cycles = Monitor.cyclesSkipping (· == 0xFF) := by
  funext cell
  simp only [cycles, Monitor.cyclesSkipping, beq_iff_eq]

theorem stores_flash (cells : List (Nat × UInt8)) {m : Monitor}
    (hpart : m.chip.part.FillsBanks) (hstate : m.chip.state = .read)
    (hin : ∀ cell ∈ cells, (m.chip.part.offset? (cell.1 % space)).isSome) :
    m.stores (cells.flatMap flash.cycles)
      = { m with
          chip := m.chip.programs
            (cells.map fun cell => (cell.1 % space - m.chip.part.base, cell.2)) } := by
  rw [flash_cycles_eq]
  exact stores_skipping _ (fun _ => eq_of_beq) cells hpart hstate hin

/-- A flash command is an erased chip and the stores of its cells. -/
theorem run_flash_stores (segments : List Segment) {m : Monitor} (hpart : m.chip.part.FillsBanks)
    (hstate : m.chip.state = .read) :
    ∃ c told sent, run (flash.transfer segments) m
      = ⟨(), (({ m.halted.halted with chip := m.chip.wiped } : Monitor).stores
          ((flash.cells segments).flatMap flash.cycles)).pointAt c,
        told ++ [.line "Flash complete!"], sent⟩ := by
  obtain ⟨c, told, sent, hprepare⟩ := run_flash_prepare m
  rw [Monitor.stores_wipeCycles (m := m.halted.halted) hpart hstate] at hprepare
  exact run_transfer_writes rfl segments hprepare

/-- A flash command as one operation on the chip, if every byte is for it. -/
theorem run_flash (segments : List Segment) {m : Monitor} (hpart : m.chip.part.FillsBanks)
    (hstate : m.chip.state = .read)
    (hin : ∀ cell ∈ flash.cells segments, (m.chip.part.offset? (cell.1 % space)).isSome) :
    ∃ c told sent, run (flash.transfer segments) m
      = ⟨(), ({ m.halted.halted with
          chip := m.chip.wiped.programs ((flash.cells segments).map fun cell =>
            (cell.1 % space - m.chip.part.base, cell.2)) } : Monitor).pointAt c,
        told ++ [.line "Flash complete!"], sent⟩ := by
  obtain ⟨c, told, sent, h⟩ := run_flash_stores segments hpart hstate
  rw [stores_flash (m := { m.halted.halted with chip := m.chip.wiped }) _ hpart rfl hin] at h
  exact ⟨c, told, sent, h⟩

/-! ## Reading the image back -/

theorem mem_bytesAt {p : Purpose} {segments : List Segment} {a : Nat} {v : UInt8} :
    v ∈ p.bytesAt segments a ↔ ∃ cell ∈ p.cells segments, cell.1 % space = a ∧ cell.2 = v := by
  rw [bytesAt, storedAt, List.filterMap_map, List.mem_filterMap]
  refine exists_congr fun cell => and_congr_right fun _ => ?_
  dsimp only [Function.comp_apply]
  by_cases ha : cell.1 % space = a
  · rw [if_pos ha, Option.some.injEq]
    exact (and_iff_right ha).symm
  · rw [if_neg ha]
    exact iff_of_false (fun h => Option.some_ne_none _ h.symm) fun h => ha h.1

theorem foldl_and_same {v : UInt8} (bs : Bytes) (h : ∀ b ∈ bs, b = v) :
    bs.foldl (· &&& ·) v = v := by
  induction bs with
  | nil => rfl
  | cons b bs ih =>
    obtain ⟨rfl, hbs⟩ := List.forall_mem_cons.mp h
    rw [List.foldl_cons, UInt8.and_self]
    exact ih hbs

/-- The conjunction of bytes that are all the same, if there are any. -/
theorem foldl_and_erased {v : UInt8} {bs : Bytes} (hv : v ∈ bs) (h : ∀ b ∈ bs, b = v) :
    bs.foldl (· &&& ·) 0xFF = v := by
  cases bs with
  | nil => cases hv
  | cons b bs =>
    obtain ⟨rfl, hbs⟩ := List.forall_mem_cons.mp h
    have hfirst : (0xFF : UInt8) &&& b = b := UInt8.neg_one_and
    rw [List.foldl_cons, hfirst]
    exact foldl_and_same bs hbs

section InChip

variable {part : Monitor.Part} {segments : List Segment} (hpart : part.FillsBanks)
  (hin : ∀ seg ∈ segments, ∀ i < seg.data.length,
    (part.offset? (flashAddress seg.address + i)).isSome)
include hpart hin

/-- The cells of a file whose bytes are for the chip. -/
theorem cells_inChip : ∀ cell ∈ flash.cells segments, (part.offset? (cell.1 % space)).isSome := by
  intro cell hcell
  obtain ⟨seg, hseg, i, hi, rfl⟩ := mem_cells_iff.mp hcell
  obtain ⟨o, ho⟩ := Option.isSome_iff_exists.mp (hin seg hseg i hi)
  show (part.offset? ((flashAddress seg.address + i) % addressSpace % space)).isSome
  rw [hpart.mod_eq ho]
  exact hin seg hseg i hi

/-- Where no two bytes disagree, the conjunction of the bytes for an address is any one of them. -/
theorem foldl_bytesAt (hagree : ∀ seg ∈ segments, ∀ seg' ∈ segments,
      ∀ i (hi : i < seg.data.length) j (hj : j < seg'.data.length),
      flashAddress seg.address + i = flashAddress seg'.address + j → seg.data[i] = seg'.data[j])
    {seg : Segment} (hseg : seg ∈ segments) {i : Nat} (hi : i < seg.data.length) :
    (flash.bytesAt segments (flashAddress seg.address + i)).foldl (· &&& ·) 0xFF = seg.data[i] := by
  have haddress : ∀ seg ∈ segments, ∀ i < seg.data.length,
      (flashAddress seg.address + i) % addressSpace % space = flashAddress seg.address + i := by
    intro seg hseg i hi
    obtain ⟨o, ho⟩ := Option.isSome_iff_exists.mp (hin seg hseg i hi)
    exact hpart.mod_eq ho
  refine foldl_and_erased ?_ fun b hb => ?_
  · refine mem_bytesAt.mpr ⟨_, mem_cells_iff.mpr ⟨seg, hseg, i, hi, rfl⟩, ?_, rfl⟩
    exact haddress seg hseg i hi
  · obtain ⟨cell, hcell, ha, rfl⟩ := mem_bytesAt.mp hb
    obtain ⟨seg', hseg', j, hj, rfl⟩ := mem_cells_iff.mp hcell
    refine hagree seg' hseg' seg hseg j hj i hi ?_
    rw [← ha]
    exact (haddress seg' hseg' j hj).symm

end InChip

end Purpose

variable {loader loader' : Loader} {words words' : List String} {file file' : String}
  {segments : List Segment}

/-- Memory that holds every byte of a file passes its verification. -/
theorem verify_of_holds {p : Purpose} (s : Session Monitor) (hp : p.compares = true)
    (hwords : Command.parse words = some (.transfer p (some file)))
    (hload : loader.load file = .ok segments) (hreplies : s.link.replies = [])
    (hall : ∀ cell ∈ p.cells segments, s.link.Holds cell) :
    (s.dispatch loader words).transcript.back? = some (.line "Verify complete!") := by
  obtain ⟨-, htranscript⟩ := s.dispatch_transfer_monitor hwords hload
  rcases Purpose.run_transfer_compares hp hreplies segments with
    ⟨-, c, told, hrun⟩ | ⟨before, a, hmis, -⟩
  · rw [hrun] at htranscript
    exact Session.back?_of_told htranscript
  · exact absurd hall hmis.not_forall

/-- **The image of a flash command.**  On a chip that fills banks of the window and follows no
command, whatever its contents, if every byte of the file is for the chip, then afterwards each
offset holds the conjunction of the bytes for it, which is an erased byte if there are none.
Nothing else in memory changes and success is the last thing said.  If moreover no two bytes
disagree about an offset and no reply is waiting, then verifying the same segments next succeeds. -/
theorem flash_image (s : Session Monitor) (hpart : s.link.chip.part.FillsBanks)
    (hstate : s.link.chip.state = .read) (hidentity : s.link.chip.showsIdentity = false)
    (hwords : Command.parse words = some (.transfer .flash (some file)))
    (hload : loader.load file = .ok segments)
    (hin : ∀ seg ∈ segments, ∀ i < seg.data.length,
      (s.link.chip.part.offset? (flashAddress seg.address + i)).isSome) :
    (∀ o < s.link.chip.part.size, (s.dispatch loader words).link.chip.data[o]?
        = some ((Purpose.flash.bytesAt segments (0x200000 + o)).foldl (· &&& ·) 0xFF)) ∧
    (s.dispatch loader words).link.ram = s.link.ram ∧
    (s.dispatch loader words).link.remap = s.link.remap ∧
    (s.dispatch loader words).link.chip.part = s.link.chip.part ∧
    (s.dispatch loader words).link.chip.state = .read ∧
    (s.dispatch loader words).link.chip.showsIdentity = false ∧
    (s.dispatch loader words).transcript.back? = some (.line "Flash complete!") ∧
    ((∀ seg ∈ segments, ∀ seg' ∈ segments,
        ∀ i (hi : i < seg.data.length) j (hj : j < seg'.data.length),
        flashAddress seg.address + i = flashAddress seg'.address + j →
        seg.data[i] = seg'.data[j]) →
      s.link.replies = [] → Command.parse words' = some (.transfer .verifyRom (some file')) →
      loader'.load file' = .ok segments →
      ((s.dispatch loader words).dispatch loader' words').transcript.back?
        = some (.line "Verify complete!")) := by
  have hcells := Purpose.cells_inChip hpart hin
  obtain ⟨c, told, sent, hrun⟩ := Purpose.run_flash segments hpart hstate hcells
  obtain ⟨hboard, htranscript⟩ := s.dispatch_transfer_monitor hwords hload
  rw [hrun] at hboard htranscript
  generalize s.dispatch loader words = after at *
  obtain ⟨hpart', hstate', hidentity'⟩ := Monitor.Chip.programs_frame
    ((Purpose.flash.cells segments).map fun cell =>
      (cell.1 % space - s.link.chip.part.base, cell.2)) (c := s.link.chip.wiped) rfl
  have hdata : ∀ o < s.link.chip.part.size, after.link.chip.data[o]?
      = some ((Purpose.flash.bytesAt segments (0x200000 + o)).foldl (· &&& ·) 0xFF) := by
    intro o ho
    rw [hboard]
    show (s.link.chip.wiped.programs _).data[o]? = _
    rw [Monitor.Chip.getElem?_programs, Monitor.Chip.getElem?_wiped _ ho,
      Purpose.storedAt_offset _ _ hcells, hpart.base]
    rfl
  have hchip : after.link.chip.part = s.link.chip.part ∧ after.link.chip.state = .read ∧
      after.link.chip.showsIdentity = false := by
    rw [hboard]
    exact ⟨hpart', hstate', hidentity'.trans hidentity⟩
  obtain ⟨hafterPart, hafterState, hafterIdentity⟩ := hchip
  have hlast : after.transcript.back? = some (.line "Flash complete!") :=
    Session.back?_of_told htranscript
  refine ⟨hdata, by rw [hboard]; rfl, by rw [hboard]; rfl, hafterPart, hafterState, hafterIdentity,
    hlast, fun hagree hreplies hwords' hload' => ?_⟩
  have hreplies' : after.link.replies = [] := by
    rw [hboard]
    exact hreplies
  -- the chip shows its contents, and each offset holds the only byte there is for it
  refine verify_of_holds after rfl hwords' hload' hreplies' fun cell hcell => ?_
  obtain ⟨seg, hseg, i, hi, rfl⟩ := Purpose.mem_cells_iff.mp hcell
  obtain ⟨o, ho⟩ := Option.isSome_iff_exists.mp (hin seg hseg i hi)
  obtain ⟨hplace, hlt⟩ := Monitor.Part.offset?_eq_some_iff.mp ho
  show after.link.load ((flashAddress seg.address + i) % addressSpace % space) = seg.data[i]
  rw [hpart.mod_eq ho, Monitor.load_of_chip (by rw [hafterPart]; exact ho), Monitor.Chip.read,
    hafterIdentity, hdata o hlt]
  rw [hpart.base] at hplace
  exact hplace ▸ Purpose.foldl_bytesAt hpart hin hagree hseg hi

/-- Two segments that agree where they overlap, in different banks of a chip that was all zero. -/
theorem flash_image_overlap :
    let segments : List Segment := [⟨0xFFFE, [1, 2, 3]⟩, ⟨0x110000, [3, 0xFF]⟩]
    let dirty : Monitor := { chip := (Monitor.Chip.blank {}).fill 0 }
    let after := (⟨dirty, ⟨0⟩, #[], .quiet⟩ : Session Monitor).dispatch (.fixed segments)
      ["flash", "a"]
    after.link.chip.data[0x10000]? = some 3 ∧ after.link.chip.data[0x20000]? = some 0xFF ∧
      after.link.chip.state = .read ∧
      (after.dispatch (.fixed segments) ["verify-rom", "a"]).transcript.back?
        = some (.line "Verify complete!") := by
  intro segments dirty after
  have hflash : Command.parse ["flash", "a"] = some (.transfer .flash (some "a")) := by
    decide +kernel
  have hverifyRom : Command.parse ["verify-rom", "a"] = some (.transfer .verifyRom (some "a")) := by
    decide +kernel
  have hload : (Loader.fixed segments).load "a" = .ok segments := rfl
  obtain ⟨hdata, -, -, -, hstate, -, -, hverify⟩ := flash_image ⟨dirty, ⟨0⟩, #[], .quiet⟩
    ⟨rfl, by decide, by decide, by decide⟩ rfl rfl hflash hload (by decide)
  refine ⟨?_, ?_, hstate, hverify (by decide) rfl hverifyRom hload⟩
  · rw [hdata _ (by decide)]
    rfl
  · rw [hdata _ (by decide)]
    rfl

end Debugger

end BoardConsole
