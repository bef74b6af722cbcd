import BoardConsole.Proofs.Maintenance
import BoardConsole.Proofs.Verification

/-!
# Procedures that store nothing

Showing memory and comparing an object file with it move the pointer and use replies up, and leave
everything else on the board as it was, whatever the replies are.

- `Monitor.SameMemory`: two boards with the same memory, mapper and chip.
- `Procedure.KeepsMemory`: a procedure that stores nothing, closed under `bind`.
- `Purpose.keepsMemory_transfer`: **comparing a file stores nothing**, from any state of the board.
-/

namespace BoardConsole

open ObjectFile (Segment)

/-- Two boards with the same memory, whose pointers go on in the same way. -/
structure Monitor.SameMemory (a b : Monitor) : Prop where
  ram : a.ram = b.ram
  remap : a.remap = b.remap
  chip : a.chip = b.chip
  advance : a.advance = b.advance

namespace Monitor.SameMemory

variable {a b c : Monitor}

theorem refl (m : Monitor) : m.SameMemory m := ⟨rfl, rfl, rfl, rfl⟩

theorem symm (h : a.SameMemory b) : b.SameMemory a :=
  ⟨h.ram.symm, h.remap.symm, h.chip.symm, h.advance.symm⟩

theorem trans (h : a.SameMemory b) (h' : b.SameMemory c) : a.SameMemory c :=
  ⟨h.ram.trans h'.ram, h.remap.trans h'.remap, h.chip.trans h'.chip, h.advance.trans h'.advance⟩

end Monitor.SameMemory

namespace Debugger

namespace Procedure

variable {α β : Type}

/-- The procedure leaves the memory alone. -/
def KeepsMemory (p : Procedure α) : Prop := ∀ m, (run p m).board.SameMemory m

theorem KeepsMemory.bind {p : Procedure α} {f : α → Procedure β} (hp : KeepsMemory p)
    (hf : ∀ a, KeepsMemory (f a)) : KeepsMemory (p >>= f) := by
  intro m
  rw [run_bind]
  exact (hf _ _).trans (hp m)

theorem keepsMemory_pure (a : α) : KeepsMemory (pure a : Procedure α) := Monitor.SameMemory.refl

theorem keepsMemory_say (text : String) : KeepsMemory (say text) := Monitor.SameMemory.refl

theorem keepsMemory_note (level : Log.Level) (text : String) : KeepsMemory (note level text) :=
  Monitor.SameMemory.refl

theorem keepsMemory_drain : KeepsMemory drain := fun _ => ⟨rfl, rfl, rfl, rfl⟩

/-- The marks that control the processor. -/
def controlMarks : List Char := ['[', ']', 'R', 'X']

/-- Controls are noted down and do nothing to the memory. -/
theorem keepsMemory_send {text : List Char} (h : text.all controlMarks.contains = true) :
    KeepsMemory (send text) := by
  intro m
  rw [run_send]
  induction text generalizing m with
  | nil => exact .refl m
  | cons c text ih =>
    obtain ⟨hc, hrest⟩ := Bool.and_eq_true_iff.mp h
    have hfirst : (m.receiveAll (Utf8.encode [c])).SameMemory m := by
      have hmem : c ∈ controlMarks := List.contains_iff_mem.mp hc
      simp only [controlMarks, List.mem_cons, List.not_mem_nil, or_false] at hmem
      rcases hmem with rfl | rfl | rfl | rfl
      all_goals exact ⟨rfl, rfl, rfl, rfl⟩
    rw [← List.singleton_append, Utf8.encode_append, Monitor.receiveAll_append]
    exact (ih hrest _).trans hfirst

theorem keepsMemory_halt : KeepsMemory halt := keepsMemory_send rfl

theorem keepsMemory_control {text : List Char} (h : text.all controlMarks.contains = true)
    (message : String) : KeepsMemory (control text message) :=
  (keepsMemory_send h).bind fun _ => keepsMemory_say message

theorem keepsMemory_setAddress (address : Nat) : KeepsMemory (setAddress address) := by
  intro m
  rw [run_setAddress]
  exact ⟨rfl, rfl, rfl, rfl⟩

theorem keepsMemory_fetchByte : KeepsMemory fetchByte := by
  intro m
  obtain ⟨v, rest, told, hrun⟩ := run_fetchByte_board m
  rw [hrun]
  exact ⟨rfl, rfl, rfl, rfl⟩

theorem keepsMemory_fetchBytes (n : Nat) : KeepsMemory (fetchBytes n) := by
  induction n with
  | zero => exact keepsMemory_pure _
  | succ n ih =>
    exact keepsMemory_fetchByte.bind fun _ => ih.bind fun _ => keepsMemory_pure _

theorem keepsMemory_dump (address n : Nat) : KeepsMemory (dump address n) := by
  induction n generalizing address with
  | zero => exact keepsMemory_pure _
  | succ n ih =>
    exact (keepsMemory_fetchBytes _).bind fun _ => (keepsMemory_say _).bind fun _ => ih _

theorem keepsMemory_readMemory (addresses : List Number) : KeepsMemory (readMemory addresses) := by
  induction addresses with
  | nil => exact keepsMemory_pure _
  | cons number rest ih =>
    cases number with
    | valid address =>
      exact (keepsMemory_setAddress _).bind fun _ => (keepsMemory_dump _ _).bind fun _ => ih
    | invalid token => exact (keepsMemory_say _).bind fun _ => ih

theorem keepsMemory_notes (records : List Log.Record) : KeepsMemory (notes records) := by
  induction records with
  | nil => exact keepsMemory_pure _
  | cons record rest ih => exact (keepsMemory_note _ _).bind fun _ => ih

end Procedure

namespace Purpose

open Procedure

theorem keepsMemory_point (p : Purpose) (address : Nat) : KeepsMemory (p.point address) := by
  intro m
  obtain ⟨c, hrun, -⟩ := p.run_point address m
  rw [hrun]
  exact ⟨rfl, rfl, rfl, rfl⟩

theorem keepsMemory_report (p : Purpose) (index total : Nat) :
    KeepsMemory (p.report index total) := by
  intro m
  obtain ⟨told, hrun⟩ := p.run_report index total m
  rw [hrun]
  exact .refl m

theorem keepsMemory_aim (p : Purpose) (base index : Nat) : KeepsMemory (p.aim base index) := by
  rw [aim]
  split
  · exact keepsMemory_point p _
  · exact keepsMemory_pure _

theorem keepsMemory_check (address : Nat) (b : UInt8) : KeepsMemory (check address b) := by
  refine keepsMemory_fetchByte.bind fun actual => ?_
  split
  · exact keepsMemory_pure _
  · exact (keepsMemory_note _ _).bind fun _ => (keepsMemory_say _).bind fun _ => keepsMemory_pure _

theorem keepsMemory_proceed {p next : Procedure Flow} (hp : KeepsMemory p)
    (hnext : KeepsMemory next) : KeepsMemory (p >>= proceed next) := by
  refine hp.bind fun flow => ?_
  cases flow with
  | onward => exact hnext
  | abort => exact keepsMemory_pure _

variable {p : Purpose} (hp : p.compares = true)
include hp

theorem keepsMemory_bytes (base total : Nat) (data : Bytes) (index : Nat) :
    KeepsMemory (p.bytes base total index data) := by
  induction data generalizing index with
  | nil => exact keepsMemory_pure _
  | cons b rest ih =>
    rw [bytes_cons, byte_of_compares hp]
    refine (keepsMemory_report p _ _).bind fun _ => (keepsMemory_aim p _ _).bind fun _ => ?_
    exact keepsMemory_proceed (keepsMemory_check _ b) (ih (index + 1))

theorem keepsMemory_segments (segments : List Segment) (number : Nat) :
    KeepsMemory (p.segments number segments) := by
  induction segments generalizing number with
  | nil => exact keepsMemory_pure _
  | cons seg rest ih =>
    rw [segments_cons]
    refine (keepsMemory_say _).bind fun _ => keepsMemory_proceed ?_ ?_
    · exact (keepsMemory_point p _).bind fun _ => keepsMemory_bytes hp _ _ seg.data 0
    · exact (keepsMemory_say _).bind fun _ => ih (number + 1)

/-- **Comparing a file with memory stores nothing**, whatever comes back. -/
theorem keepsMemory_transfer (segments : List Segment) : KeepsMemory (p.transfer segments) := by
  have hprepare : KeepsMemory p.prepare := by
    cases p with
    | program => cases hp
    | flash => cases hp
    | verify => exact keepsMemory_pure _
    | verifyRom => exact keepsMemory_say _
  rw [transfer_eq]
  refine keepsMemory_halt.bind fun _ => hprepare.bind fun _ => ?_
  refine (keepsMemory_segments hp segments 0).bind fun flow => ?_
  cases flow with
  | onward => exact keepsMemory_say _
  | abort => exact keepsMemory_pure _

end Purpose

end Debugger

end BoardConsole
