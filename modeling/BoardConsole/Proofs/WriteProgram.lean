import BoardConsole.Proofs.Streaming

/-!
# Bytes written and bytes programmed

Bytes can be typed after an address or come in an object file.  Typed bytes are stored on a running
pointer; those of a file are stored with the pointer set anew at the start of each bank.  On a board
whose pointer goes on through all of memory it is there already, so the two ways are one.

- `Purpose.run_program_bytes`: **pointing anew changes nothing** on such a board, byte by byte.
- `Session.write_as_program`: writing bytes leaves the memory and the pointer that programming
  them leaves, and what it tells.
-/

namespace BoardConsole.Debugger

open ObjectFile (Segment addressSpace)
open Monitor (space)
open Procedure

namespace Purpose

variable {m : Monitor} (hadvance : m.advance = .linear)

/-- The target pointed anew is pointed where it was. -/
theorem run_program_aim (m : Monitor) (base index : Nat) :
    run (program.aim base index) (m.pointAt (base + index))
      = ⟨(), m.pointAt (base + index), [], program.aimFrame base index⟩ := by
  rw [aim, aimFrame]
  split
  · show run (setAddress _) _ = _
    rw [run_setAddress, Monitor.pointAt_pointAt, m.pointAt_congr (mod_addressSpace _)]
    rfl
  · rfl

include hadvance

/-- **Pointing anew changes nothing.**  The bytes of a segment from one on are stored as on a
running pointer, by induction on them: the pointer is at the next byte after each. -/
theorem run_program_bytes (base total : Nat) (data : Bytes) (index : Nat) :
    ∃ sent, run (program.bytes base total index data) (m.pointAt (base + index))
      = ⟨.onward, (run (storeBytes data) (m.pointAt (base + index))).board, [], sent⟩ := by
  induction data generalizing index m with
  | nil => exact ⟨[], rfl⟩
  | cons b rest ih =>
    have hnext : ∀ m' : Monitor, m'.pointAt (m.advance.ahead (base + index) 1)
        = m'.pointAt (base + (index + 1)) := by
      intro m'
      refine m'.pointAt_congr ?_
      rw [hadvance]
      exact Nat.mod_mod _ _
    have hstore : run (storeByte b) (m.pointAt (base + index))
        = ⟨(), (m.store ((base + index) % space) b).pointAt (base + (index + 1)), [],
          storeFrame b⟩ := by
      rw [run_storeByte_pointAt, hnext]
    have hboard : (run (storeBytes (b :: rest)) (m.pointAt (base + index))).board
        = (run (storeBytes rest)
          ((m.store ((base + index) % space) b).pointAt (base + (index + 1)))).board := by
      rw [storeBytes, run_bind, hstore]
      rfl
    obtain ⟨sent, hrest⟩ := ih ((m.store_advance _ b).trans hadvance) (index + 1)
    have hreport : run (program.report index total) (m.pointAt (base + index))
        = ⟨(), m.pointAt (base + index), [], []⟩ := rfl
    have hbyte := run_bind_of (f := fun _ => pure Flow.onward) hstore (run_pure ..)
    rw [bytes_cons, hboard]
    exact ⟨_, run_bind_of hreport (run_bind_of (run_program_aim m base index)
      (run_bind_of hbyte hrest))⟩

/-- A file of one segment programmed, with all that it leaves on the board. -/
theorem run_program_segment (a : Nat) (data : Bytes) :
    ∃ told sent, run (program.transfer [⟨a, data⟩]) m
      = ⟨(), (m.halted.stores (Monitor.Advance.linear.cells a data)).pointAt
        (Monitor.Advance.linear.ahead a data.length), told, sent⟩ := by
  obtain ⟨sent₁, hbytes⟩ :=
    run_program_bytes (m := m.halted) hadvance a data.length data 0
  obtain ⟨sent₂, hstored⟩ := run_storeBytes data m.halted a
  rw [Nat.add_zero, hstored] at hbytes
  have hadvance' : m.halted.advance = .linear := hadvance
  rw [hadvance'] at hbytes
  have hsegment := run_bind_of (f := fun _ => program.bytes a data.length 0 data)
    (run_setAddress (m.halted.pointAt m.pointer) a) hbytes
  have hfile := run_bind_of (f := proceed (say "Segment complete!" >>= fun _ => pure Flow.onward))
    hsegment (run_bind_of (run_say ..) (run_pure ..))
  rw [transfer_eq, segments_cons]
  exact ⟨_, _, run_bind_of (run_halt m) (run_bind_of (run_pure ..)
    (run_bind_of (run_bind_of (run_say ..) hfile) (run_say ..)))⟩

end Purpose

namespace Session

variable {loader' : Loader} {name token file : String} {words : List String} {a : Nat}

/-- **Writing is programming.**  From any state of a board, its chip in the middle of a command
included, bytes typed after an address leave the same RAM, registers, chip and pointer as a file
of one segment with these bytes.  The bytes are those that the arguments spell up to the first that
spells none; the last line counts the arguments taken, and the line before it names the one that
was not, if there is one. -/
theorem write_as_program (loader : Loader) (s : Session Monitor)
    (hadvance : s.link.advance = .linear)
    (hname : name.toLower = "write") (haddress : numberBelow? 0x1000000 token = some a)
    (args : List String) (hwords : Command.parse words = some (.transfer .program (some file)))
    (hload : loader'.load file = .ok [⟨a, dataBytes args⟩]) :
    let written := s.dispatch loader (name :: token :: args)
    let programmed := s.dispatch loader' words
    written.link.ram = programmed.link.ram ∧ written.link.remap = programmed.link.remap ∧
      written.link.chip = programmed.link.chip ∧
      written.link.pointer = programmed.link.pointer ∧
      written.transcript.toList = s.transcript.toList
        ++ (rejectedArgument? args).toList.map (fun token => .line s!"Bad data: {token}")
        ++ [.line s!"Wrote {(dataArguments args).length} byte{plural (dataArguments args).length}!"]
    := by
  intro written programmed
  obtain ⟨sent, hwrite, -⟩ :=
    run_write loader s.link a (dataBytes args) (rejectedArgument? args)
  obtain ⟨told, sent', hprogram⟩ :=
    Purpose.run_program_segment hadvance a (dataBytes args)
  obtain ⟨hwritten, htranscript⟩ := @dispatch_run_monitor loader _ _ s
    (Command.parse_write hname haddress args)
  obtain ⟨hprogrammed, -⟩ := s.dispatch_transfer_monitor hwords hload
  rw [hwrite, hadvance] at hwritten
  rw [hwrite, writeReport, length_dataBytes, ← List.append_assoc] at htranscript
  rw [hprogram] at hprogrammed
  -- halting and resetting the board is nothing to its memory
  have hhalted : s.link.SameMemory s.link.halted := ⟨rfl, rfl, rfl, rfl⟩
  have hstored := hhalted.stores (Monitor.Advance.linear.cells a (dataBytes args))
  have hmemory : written.link.SameMemory programmed.link := by
    rw [show written.link = _ from hwritten, show programmed.link = _ from hprogrammed]
    exact ⟨hstored.ram, hstored.remap, hstored.chip, hstored.advance⟩
  have hpointer : written.link.pointer = programmed.link.pointer := by
    rw [show written.link = _ from hwritten, show programmed.link = _ from hprogrammed]
    rfl
  exact ⟨hmemory.ram, hmemory.remap, hmemory.chip, hpointer, htranscript⟩

/-- Two bytes over the end of a bank of a chip that waits for a value to program, with an empty
argument between them and more after one that is no byte. -/
theorem write_as_program_bank_end :
    let args := ["0x41", "", "102", "256", "1"]
    let s : Session Monitor :=
      ⟨{ chip := { Monitor.Chip.blank {} with state := .program } }, ⟨0⟩, #[], .quiet⟩
    let written := s.dispatch (.fixed []) ("Write" :: "0x20FFFF" :: args)
    let programmed := s.dispatch (.fixed [⟨0x20FFFF, [0x41, 0x66]⟩]) ["program", "a"]
    s.link.advance = .linear ∧ "Write".toLower = "write" ∧
      numberBelow? 0x1000000 "0x20FFFF" = some 0x20FFFF ∧
      written.link.chip = programmed.link.chip ∧
      written.link.pointer = programmed.link.pointer ∧
      written.transcript.toList = [.line "Bad data: 256", .line "Wrote 2 bytes!"] := by
  intro args s written programmed
  have hname : "Write".toLower = "write" := by decide +kernel
  have haddress : numberBelow? 0x1000000 "0x20FFFF" = some 0x20FFFF := by decide +kernel
  have hwords : Command.parse ["program", "a"] = some (.transfer .program (some "a")) := by
    decide +kernel
  have hbytes : [0x41, 0x66] = dataBytes args := by decide +kernel
  have hload : (Loader.fixed [⟨0x20FFFF, [0x41, 0x66]⟩]).load "a"
      = .ok [⟨0x20FFFF, dataBytes args⟩] := by
    rw [← hbytes]
    rfl
  obtain ⟨-, -, hchip, hpointer, htranscript⟩ :=
    s.write_as_program (.fixed []) rfl hname haddress args hwords hload
  refine ⟨rfl, hname, haddress, hchip, hpointer, htranscript.trans ?_⟩
  decide +kernel

end Session

end BoardConsole.Debugger
