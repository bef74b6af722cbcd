import BoardConsole.Proofs.FlashImage
import BoardConsole.Proofs.Untouched

/-!
# The chip between two commands

A command that leaves the chip in the middle of a command sequence spoils the one after it.  All
commands that do not put bytes of the user's own on the bus finish what they begin, wherever their
files and addresses point, except one: a sector erase is opened in the chip's first bank and given
in the bank of the address, so an address in the window beyond the end of the chip leaves the
sequence open.

- `Procedure.KeepsChip`: procedures that leave the chip alone.
- `Purpose.ready_stores_flash`: programming a file leaves the chip ready, also where the file
  misses the chip.
- `run_procedure_ready`: **what one command does to a chip that is ready**.
- `chip_ready_iff`: exactly which sequences of commands keep it ready throughout.
- `erase_lost`: what becomes of the command after one that leaves the sequence open.
-/

namespace BoardConsole

/-- The chip follows no command and shows its contents. -/
structure Monitor.Chip.Ready (c : Monitor.Chip) : Prop where
  state : c.state = .read
  identity : c.showsIdentity = false

namespace Debugger

open ObjectFile (Segment)

/-! ## Procedures that leave the chip alone -/

namespace Procedure

variable {α β : Type}

/-- The procedure leaves the chip alone. -/
def KeepsChip (p : Procedure α) : Prop := ∀ m, (run p m).board.chip = m.chip

/-- What comes after a procedure and stores nothing is not seen in the chip. -/
theorem keepsChip_after {p : Procedure α} {f : α → Procedure β} (hf : ∀ a, KeepsChip (f a))
    (m : Monitor) : (run (p >>= f) m).board.chip = (run p m).board.chip := by
  rw [run_bind]
  exact hf _ _

theorem KeepsChip.bind {p : Procedure α} {f : α → Procedure β} (hp : KeepsChip p)
    (hf : ∀ a, KeepsChip (f a)) : KeepsChip (p >>= f) := by
  intro m
  rw [keepsChip_after hf, hp]

theorem keepsChip_say (text : String) : KeepsChip (say text) := fun _ => rfl

theorem keepsChip_note (level : Log.Level) (text : String) : KeepsChip (note level text) :=
  fun _ => rfl

/-- Who leaves the memory alone leaves the chip alone. -/
theorem KeepsMemory.keepsChip {p : Procedure α} (h : KeepsMemory p) : KeepsChip p :=
  fun m => (h m).chip

end Procedure

/-! ## Programming, wherever the file points -/

namespace Purpose

open Monitor (space)
open Procedure

/-- One byte of a file leaves the chip ready: either its whole bank is in the chip, and the byte is
programmed, or none of it is, and the chip notices nothing. -/
theorem ready_stores_cycles {m : Monitor} (hpart : m.chip.part.FillsBanks) (hready : m.chip.Ready)
    (cell : Nat × UInt8) :
    (m.stores (flash.cycles cell)).chip.part = m.chip.part ∧
      (m.stores (flash.cycles cell)).chip.Ready := by
  rw [cycles]
  by_cases hff : cell.2 = 0xFF
  · rw [if_pos hff]
    exact ⟨rfl, hready⟩
  · rw [if_neg hff]
    cases ho : m.chip.part.offset? (cell.1 % space) with
    | some o =>
      rw [Monitor.stores_programCycles hpart hready.state ho]
      exact ⟨rfl, rfl, hready.identity⟩
    | none =>
      have hbank := hpart.offset?_inBank_none ho
      have hchip : (m.stores (programCycles cell.1 cell.2)).chip = m.chip := by
        refine Monitor.stores_chip _ fun w hw => ?_
        simp only [programCycles, unlockCycles, List.mem_append, List.mem_cons,
          List.not_mem_nil, or_false] at hw
        rcases hw with ((rfl | rfl) | rfl) | rfl
        · exact hbank _
        · exact hbank _
        · exact hbank _
        · exact ho
      rw [hchip]
      exact ⟨rfl, hready⟩

theorem ready_stores_flash (cells : List (Nat × UInt8)) {m : Monitor}
    (hpart : m.chip.part.FillsBanks) (hready : m.chip.Ready) :
    (m.stores (cells.flatMap flash.cycles)).chip.part = m.chip.part ∧
      (m.stores (cells.flatMap flash.cycles)).chip.Ready := by
  induction cells generalizing m with
  | nil => exact ⟨rfl, hready⟩
  | cons cell rest ih =>
    obtain ⟨hkind, hcell⟩ := ready_stores_cycles hpart hready cell
    rw [List.flatMap_cons, Monitor.stores_append, ← hkind]
    exact ih (hkind ▸ hpart) hcell

end Purpose

/-! ## One command -/

namespace Command

/-- The command puts bytes of the user's own on the bus. -/
def writesMemory : Command → Bool
  | .write _ => true
  | .transfer .program _ => true
  | _ => false

/-- The command erases a sector in the window beyond the end of the chip. -/
def overshoots (part : Monitor.Part) : Command → Bool
  | .eraseSector (some (.valid address)) => decide (part.Overshot address)
  | _ => false

end Command

section

open Procedure

variable {loader : Loader} {m : Monitor}

/-- A sector erase beyond the end of the chip is left open. -/
theorem run_eraseSector_ready (hpart : m.chip.part.FillsBanks) (hready : m.chip.Ready)
    (address : Nat) :
    (run (eraseSector address) m).board.chip.part = m.chip.part ∧
      ((run (eraseSector address) m).board.chip.Ready ↔ ¬ m.chip.part.Overshot address) := by
  obtain ⟨c, sent, hrun⟩ := run_eraseSector address m
  rw [hrun]
  dsimp only
  rw [Monitor.pointAt_chip]
  by_cases hover : m.chip.part.Overshot address
  · rw [Monitor.stores_sectorCycles_chip_of_overshot (m := m.halted) hpart hready.state hover]
    refine ⟨rfl, iff_of_false (fun h => ?_) (not_not_intro hover)⟩
    cases h.state
  · cases ho : m.chip.part.offset? (address % Monitor.space) with
    | some o =>
      rw [Monitor.stores_sectorCycles (m := m.halted) hpart hready.state ho]
      exact ⟨rfl, iff_of_true ⟨rfl, hready.identity⟩ hover⟩
    | none =>
      have hbank : sectorBank address ≠ flashBank := by
        intro hbank
        rcases (hpart.sectorBank_eq_iff address).mp hbank with h | ⟨o, h⟩
        · exact hover h
        · rw [ho] at h
          cases h
      rw [Monitor.stores_sectorCycles_chip_of_outside (m := m.halted) hpart hbank]
      exact ⟨rfl, iff_of_true hready hover⟩

theorem run_chipIdentity_chip (hpart : m.chip.part.FillsBanks) (hready : m.chip.Ready) :
    (run (chipIdentity flashBank) m).board.chip = m.chip := by
  obtain ⟨v, rest, c, told, sent, hrun⟩ := run_chipIdentity (show flashBank < 0x100 by decide) m
  have hentry : (m.stopped.stores (entryCycles flashBank)).chip
      = { m.chip with state := .read, showsIdentity := true } := by
    rw [Monitor.stores_entry (m := m.stopped) hpart hready.state]
    rfl
  -- the replies that the identity brought are no part of the chip
  have hexit := Monitor.stores_exit
    (m := { m.stopped.stores (entryCycles flashBank) with replies := rest })
    (by rw [hentry]; exact hpart) (by rw [hentry])
  rw [hrun]
  dsimp only
  rw [Monitor.pointAt_chip, hexit]
  dsimp only
  rw [hentry, ← hready.state, ← hready.identity]

theorem run_eraseChip_ready (hpart : m.chip.part.FillsBanks) (hready : m.chip.Ready) :
    (run (eraseChip flashBank) m).board.chip.part = m.chip.part ∧
      (run (eraseChip flashBank) m).board.chip.Ready := by
  obtain ⟨c, sent, hrun⟩ := run_eraseChip (show flashBank < 0x100 by decide) m
  rw [hrun, Monitor.stores_wipeCycles (m := m.halted) hpart hready.state]
  exact ⟨rfl, rfl, hready.identity⟩

theorem run_mapRam_chip (hpart : m.chip.part.FillsBanks) :
    (run (Command.procedure loader .mapRam) m).board.chip = m.chip := by
  have hbank : mapperBank * Monitor.bankSize % Monitor.space / Monitor.bankSize = mapperBank := by
    decide
  have h₁ := run_selectBank (m.halted.pointAt m.pointer) mapperBank
  obtain ⟨c, sent, h₂, -⟩ := mapPairs_puts 0 16 (by decide) m.halted _ hbank
  have hrun : run (Command.procedure loader .mapRam) m = _ :=
    run_bind_of (run_halt m) (run_bind_of h₁ (run_bind_of h₂ (run_say ..)))
  rw [hrun]
  exact (Monitor.pointAt_chip ..).trans (Monitor.stores_mapCycles_chip (m := m.halted) hpart 0 16)

/-- A file flashed leaves the chip ready, wherever its segments are. -/
theorem run_flash_ready (hpart : m.chip.part.FillsBanks) (hready : m.chip.Ready)
    (segments : List Segment) :
    (run (Purpose.flash.transfer segments) m).board.chip.part = m.chip.part ∧
      (run (Purpose.flash.transfer segments) m).board.chip.Ready := by
  obtain ⟨c, told, sent, hrun⟩ := Purpose.run_flash_stores segments hpart hready.state
  rw [hrun]
  exact Purpose.ready_stores_flash (Purpose.flash.cells segments)
    (m := { m.halted.halted with chip := m.chip.wiped }) hpart ⟨rfl, hready.identity⟩

/-- The commands that take a file leave the chip ready, whatever is wrong with the file. -/
theorem run_transferFile_ready (hpart : m.chip.part.FillsBanks) (hready : m.chip.Ready)
    {purpose : Purpose} (hpurpose : purpose ≠ .program) (file : Option String) :
    (run (transferFile loader purpose file) m).board.chip.part = m.chip.part ∧
      (run (transferFile loader purpose file) m).board.chip.Ready := by
  have hkeeps : ∀ {p : Procedure Unit}, KeepsChip p →
      (run p m).board.chip.part = m.chip.part ∧ (run p m).board.chip.Ready := by
    intro p h
    rw [h m]
    exact ⟨rfl, hready⟩
  cases file with
  | none => exact hkeeps (keepsChip_say _)
  | some file =>
    cases hload : loader.load file with
    | error fault =>
      rw [transferFile, hload]
      exact hkeeps ((keepsMemory_notes _).bind fun _ => keepsMemory_say _).keepsChip
    | ok segments =>
      have hrun : run (transferFile loader purpose (some file)) m
          = run (purpose.transfer segments) m := Session.run_transferFile hload m
      rw [hrun]
      cases purpose with
      | program => exact absurd rfl hpurpose
      | verify => exact hkeeps (Purpose.keepsMemory_transfer rfl segments).keepsChip
      | verifyRom => exact hkeeps (Purpose.keepsMemory_transfer rfl segments).keepsChip
      | flash => exact run_flash_ready hpart hready segments

/-- **What one command does to a chip that is ready.** -/
theorem run_procedure_ready {command : Command} (hpart : m.chip.part.FillsBanks)
    (hready : m.chip.Ready) (hcommand : command.writesMemory = false) :
    (run (command.procedure loader) m).board.chip.part = m.chip.part ∧
      ((run (command.procedure loader) m).board.chip.Ready ↔
        command.overshoots m.chip.part = false) := by
  -- most commands leave the chip alone altogether
  have hkeeps : KeepsChip (command.procedure loader) → command.overshoots m.chip.part = false →
      (run (command.procedure loader) m).board.chip.part = m.chip.part ∧
        ((run (command.procedure loader) m).board.chip.Ready ↔
          command.overshoots m.chip.part = false) := by
    intro h hover
    rw [h m]
    exact ⟨rfl, iff_of_true hready hover⟩
  cases command with
  | stop => exact hkeeps (keepsMemory_control rfl _).keepsChip rfl
  | go => exact hkeeps (keepsMemory_control rfl _).keepsChip rfl
  | reset => exact hkeeps (keepsMemory_control rfl _).keepsChip rfl
  | step => exact hkeeps (keepsMemory_control rfl _).keepsChip rfl
  | run => exact hkeeps (keepsMemory_control rfl _).keepsChip rfl
  | read addresses => exact hkeeps (keepsMemory_readMemory addresses).keepsChip rfl
  | write args => exact Bool.noConfusion hcommand
  | mapRam =>
    rw [run_mapRam_chip hpart]
    exact ⟨rfl, iff_of_true hready rfl⟩
  | erase =>
    obtain ⟨hkind, h⟩ := run_eraseChip_ready hpart hready
    have hrun : (run (Command.procedure loader .erase) m).board.chip
        = (run (eraseChip flashBank) m).board.chip := keepsChip_after (fun _ => keepsChip_say _) m
    rw [hrun]
    exact ⟨hkind, iff_of_true h rfl⟩
  | eraseSector address =>
    rcases address with _ | address | token
    · exact hkeeps (keepsChip_say _) rfl
    · have hrun :
          (run (Command.procedure loader (.eraseSector (some (.valid address)))) m).board.chip
            = (run (eraseSector address) m).board.chip :=
        keepsChip_after (fun _ => keepsChip_say _) m
      rw [hrun]
      obtain ⟨hkind, h⟩ := run_eraseSector_ready hpart hready address
      exact ⟨hkind, h.trans decide_eq_false_iff_not.symm⟩
    · exact hkeeps (keepsChip_say _) rfl
  | chipId =>
    have hrun : (run (Command.procedure loader .chipId) m).board.chip
        = (run (chipIdentity flashBank) m).board.chip :=
      keepsChip_after (fun _ => (keepsChip_note _ _).bind fun _ => keepsChip_say _) m
    rw [hrun, run_chipIdentity_chip hpart hready]
    exact ⟨rfl, iff_of_true hready rfl⟩
  | resync => exact hkeeps (fun _ => rfl) rfl
  | unknown name => exact hkeeps (keepsChip_say _) rfl
  | transfer purpose file =>
    have hpurpose : purpose ≠ .program := by
      rintro rfl
      exact Bool.noConfusion hcommand
    obtain ⟨hkind, h⟩ := run_transferFile_ready hpart hready hpurpose file
    exact ⟨hkind, iff_of_true h rfl⟩

end

/-! ## Any number of commands -/

namespace Session

/-- Commands dispatched one after another, each with the object files it finds. -/
def dispatchAll (s : Session Monitor) (lines : List (Loader × List String)) : Session Monitor :=
  lines.foldl (fun s line => s.dispatch line.1 line.2) s

theorem dispatchAll_cons (s : Session Monitor) (line : Loader × List String)
    (lines : List (Loader × List String)) :
    s.dispatchAll (line :: lines) = (s.dispatch line.1 line.2).dispatchAll lines := rfl

/-- What one dispatched command does to a chip that is ready. -/
theorem dispatch_ready (s : Session Monitor) (loader : Loader) {words : List String}
    (hpart : s.link.chip.part.FillsBanks) (hready : s.link.chip.Ready)
    (hwords : ∀ command ∈ Command.parse words, command.writesMemory = false) :
    (s.dispatch loader words).link.chip.part = s.link.chip.part ∧
      ((s.dispatch loader words).link.chip.Ready ↔
        ∀ command ∈ Command.parse words, command.overshoots s.link.chip.part = false) := by
  cases hparse : Command.parse words with
  | none =>
    have hsame : s.dispatch loader words = s := by
      rw [dispatch, hparse]
    rw [hsame]
    refine ⟨rfl, iff_of_true hready ?_⟩
    rintro command ⟨⟩
  | some command =>
    have hlink : (s.dispatch loader words).link
        = (Procedure.run (command.procedure loader) s.link).board :=
      (dispatch_run_monitor s hparse).1
    rw [hlink]
    obtain ⟨hkind, h⟩ := @run_procedure_ready loader _ _ hpart hready (hwords command hparse)
    refine ⟨hkind, h.trans ⟨fun hover command' hc => ?_, fun hall => hall command rfl⟩⟩
    cases hc
    exact hover

end Session

/-- **Which commands leave the chip ready.**  From a chip that is ready, a sequence of commands
other than `write` and `program`, with any arguments and any files, keeps it ready after every one
of them exactly if none of them erases a sector beyond the end of the chip. -/
theorem chip_ready_iff (s : Session Monitor) (lines : List (Loader × List String))
    (hpart : s.link.chip.part.FillsBanks) (hready : s.link.chip.Ready)
    (hwrites : ∀ line ∈ lines, ∀ command ∈ Command.parse line.2, command.writesMemory = false) :
    (∀ n ≤ lines.length, (s.dispatchAll (lines.take n)).link.chip.Ready) ↔
      ∀ line ∈ lines, ∀ command ∈ Command.parse line.2,
        command.overshoots s.link.chip.part = false := by
  induction lines generalizing s with
  | nil =>
    refine iff_of_true (fun n _ => ?_) (fun line h => absurd h List.not_mem_nil)
    rw [List.take_nil]
    exact hready
  | cons line lines ih =>
    obtain ⟨hkind, hstep⟩ := s.dispatch_ready line.1 hpart hready
      (hwrites line List.mem_cons_self)
    have hlater := fun h : (s.dispatch line.1 line.2).link.chip.Ready =>
      ih (s.dispatch line.1 line.2) (hkind ▸ hpart) h
        fun l hl => hwrites l (List.mem_cons_of_mem _ hl)
    rw [hkind] at hlater
    rw [List.forall_mem_cons]
    constructor
    · intro hall
      have hnext : (s.dispatch line.1 line.2).link.chip.Ready :=
        hall 1 (by rw [List.length_cons]; omega)
      refine ⟨hstep.mp hnext, (hlater hnext).mp fun n hn => ?_⟩
      exact hall (n + 1) (by rw [List.length_cons]; omega)
    · rintro ⟨hfirst, hrest⟩ n hn
      have hnext := hstep.mpr hfirst
      cases n with
      | zero => exact hready
      | succ n =>
        rw [List.take_succ_cons, Session.dispatchAll_cons]
        exact (hlater hnext).mpr hrest n (by rw [List.length_cons] at hn; omega)

/-- A file that leaves the chip in the middle, a sector at its very end and a bad number, between
commands that start from where they left it. -/
theorem chip_ready_iff_across_end :
    let s : Session Monitor := ⟨{ pointer := 0x27FFFF }, ⟨0⟩, #[], .quiet⟩
    let lines : List (Loader × List String) :=
      [(.fixed [⟨0x7FFFE, [1, 2, 3]⟩, ⟨0x5555, [0xAA]⟩], ["flash", "a"]),
        (.fixed [], ["erase-sector", "0x27FFFF"]), (.fixed [], ["chipid"]),
        (.fixed [], ["erase-sector", "0x2G"]), (.fixed [], ["mapram"]), (.fixed [], ["erase"])]
    ∀ n ≤ 6, (s.dispatchAll (lines.take n)).link.chip.Ready := by
  intro s lines
  exact (chip_ready_iff s lines ⟨rfl, by decide, by decide, by decide⟩ ⟨rfl, rfl⟩
    (by decide +kernel)).mpr (by decide +kernel)

/-- **An erase after a sector erase beyond the end of the chip is lost**: the two leave the chip as
it was. -/
theorem erase_lost (s : Session Monitor) (loader : Loader) {first second : List String}
    {address : Nat} (hpart : s.link.chip.part.FillsBanks) (hready : s.link.chip.Ready)
    (hfirst : Command.parse first = some (.eraseSector (some (.valid address))))
    (hover : s.link.chip.part.Overshot address)
    (hsecond : Command.parse second = some .erase) :
    (s.dispatch loader first).link.chip.state = .eraseUnlocked2 ∧
      ((s.dispatch loader first).dispatch loader second).link.chip = s.link.chip := by
  have hopen : (s.dispatch loader first).link.chip
      = { s.link.chip with state := .eraseUnlocked2 } := by
    rw [(Session.dispatch_run_monitor s hfirst).1]
    refine (Procedure.keepsChip_after (fun _ => Procedure.keepsChip_say _) _).trans ?_
    obtain ⟨c, sent, hrun⟩ := Procedure.run_eraseSector address s.link
    rw [hrun, Monitor.pointAt_chip]
    exact Monitor.stores_sectorCycles_chip_of_overshot (m := s.link.halted) hpart hready.state hover
  refine ⟨by rw [hopen], ?_⟩
  rw [(Session.dispatch_run_monitor _ hsecond).1]
  refine (Procedure.keepsChip_after (fun _ => Procedure.keepsChip_say _) _).trans ?_
  obtain ⟨c, sent, hrun⟩ := Procedure.run_eraseChip (show flashBank < 0x100 by decide)
    (s.dispatch loader first).link
  rw [hrun, Monitor.pointAt_chip, Monitor.stores_wipeCycles_lost]
  · show { (s.dispatch loader first).link.chip with state := .read } = s.link.chip
    rw [hopen, ← hready.state]
  · show (s.dispatch loader first).link.chip.part.FillsBanks
    rw [hopen]
    exact hpart
  · show (s.dispatch loader first).link.chip.state = .eraseUnlocked2
    rw [hopen]

/-- The default chip, all zero, answers no erase after a sector erase just beyond its end. -/
theorem erase_lost_default :
    let zero : Monitor.Chip := (Monitor.Chip.blank {}).fill 0
    let s : Session Monitor := ⟨{ chip := zero }, ⟨0⟩, #[], .quiet⟩
    let after := s.dispatch (.fixed []) ["erase-sector", "0x280000"]
    after.link.chip.state = .eraseUnlocked2 ∧
      (after.dispatch (.fixed []) ["erase"]).link.chip = zero := by
  intro zero s after
  have hfirst : Command.parse ["erase-sector", "0x280000"]
      = some (.eraseSector (some (.valid 0x280000))) := by
    decide +kernel
  exact erase_lost s (.fixed []) ⟨rfl, by decide, by decide, by decide⟩ ⟨rfl, rfl⟩ hfirst
    (by decide) (by decide +kernel)

end Debugger

end BoardConsole
