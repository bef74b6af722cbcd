import BoardConsole.Proofs.BusAccesses
import BoardConsole.Proofs.Maintenance
import BoardConsole.Proofs.Verification

/-!
# What the ROM commands access

The commands that flash an object file and that compare it with the flash chip move the address of
each segment into the chip's window and go on from there.  Everything else that they access is in
the bank of some byte of the file, so they stay in the window exactly as far as the bytes do, and a
segment that does not end in the block that it begins in leads out of it.

- `Purpose.touches`: the accesses that one byte of an object file amounts to.
- `Purpose.Handles`: a procedure accesses what certain bytes of a file amount to, one after another.
- `Purpose.accesses_transfer`: **all that an object file makes a board access**, for each of the
  commands that use one, whatever the board answers.
- `InWindow`: the addresses of the chip's window.
- `rom_accesses`: **the ROM commands stay in the window exactly as far as the bytes of the file
  do**.
-/

namespace BoardConsole.Debugger

open ObjectFile (Segment addressSpace)
open Monitor (space)
open Procedure

/-! ## The last thing told -/

/-- The last thing that a run tells. -/
def Run.Last {α : Type} (r : Run α) (entry : Entry) : Prop := ∃ told, r.told = told ++ [entry]

namespace Run.Last

variable {α β : Type} {r : Run α} {next : α → Monitor → Run β} {entry : Entry}

theorem andThen (h : (next r.value r.board).Last entry) : (r.andThen next).Last entry := by
  obtain ⟨told, htold⟩ := h
  refine ⟨r.told ++ told, ?_⟩
  rw [List.append_assoc, ← htold]
  rfl

/-- It stays the last if nothing more is told. -/
theorem andThen_silent (h : r.Last entry) (hnext : (next r.value r.board).told = []) :
    (r.andThen next).Last entry := by
  obtain ⟨told, htold⟩ := h
  refine ⟨told, ?_⟩
  rw [← htold]
  show r.told ++ (next r.value r.board).told = _
  rw [hnext, List.append_nil]

end Run.Last

namespace Purpose

/-! ## One byte after another -/

/-- The accesses that one byte of an object file amounts to. -/
def touches (p : Purpose) (cell : Nat × UInt8) : List BusAccess :=
  if p.compares then [.load (cell.1 % space)] else (p.cycles cell).map BusAccess.ofCycle

/-- From a board on, the procedure accesses what bytes of an object file amount to, one after
another: all of them, or those up to one that fails to compare, and then that is the last thing
told. -/
def Handles (p : Purpose) (m : Monitor) (q : Procedure Flow) (cells : List (Nat × UInt8)) : Prop :=
  ∃ handled, handled <+: cells ∧ q.accesses m = handled.flatMap p.touches ∧
    ((run q m).value = .onward ∧ handled = cells ∨
      (run q m).value = .abort ∧ p.compares = true ∧ ∃ a, (run q m).Last (failure a))

namespace Handles

variable {p : Purpose} {m : Monitor} {cells more : List (Nat × UInt8)}

theorem nil (p : Purpose) (m : Monitor) : p.Handles m (pure .onward) [] :=
  ⟨[], List.prefix_rfl, rfl, .inl ⟨rfl, rfl⟩⟩

/-- What accesses nothing may come before. -/
theorem after {β : Type} {r : Procedure β} {q : Procedure Flow} (hr : r.accesses m = [])
    (h : p.Handles (run r m).board q cells) : p.Handles m (r >>= fun _ => q) cells := by
  obtain ⟨handled, hinitial, haccesses, hend⟩ := h
  refine ⟨handled, hinitial, ?_, ?_⟩
  · rw [accesses_bind, hr, haccesses, List.nil_append]
  · rw [run_bind]
    rcases hend with hall | ⟨hvalue, hcompares, a, hlast⟩
    · exact .inl hall
    · exact .inr ⟨hvalue, hcompares, a, .andThen hlast⟩

/-- Bytes after others, unless one of those has failed. -/
theorem andThen {q next : Procedure Flow} (hq : p.Handles m q cells)
    (hnext : (run q m).value = .onward → p.Handles (run q m).board next more) :
    p.Handles m (q >>= proceed next) (cells ++ more) := by
  obtain ⟨handled, hinitial, haccesses, hend⟩ := hq
  rcases hend with ⟨hvalue, rfl⟩ | ⟨hvalue, hcompares, a, hlast⟩
  · obtain ⟨handled', hinitial', haccesses', hend'⟩ := hnext hvalue
    have hproceed : proceed next (run q m).value = next := by
      rw [hvalue]
      rfl
    refine ⟨handled ++ handled', (List.prefix_append_right_inj handled).mpr hinitial', ?_, ?_⟩
    · rw [accesses_bind, hproceed, haccesses, haccesses', List.flatMap_append]
    · have hlater : (run (q >>= proceed next) m).value = (run next (run q m).board).value := by
        rw [run_bind]
        show (run (proceed next (run q m).value) (run q m).board).value = _
        rw [hproceed]
      rw [hlater, run_bind]
      rcases hend' with ⟨hvalue', rfl⟩ | ⟨hvalue', hcompares, a, hlast⟩
      · exact .inl ⟨hvalue', rfl⟩
      · refine .inr ⟨hvalue', hcompares, a, .andThen ?_⟩
        rw [hproceed]
        exact hlast
  · have hproceed : ∀ m', run (proceed next (run q m).value) m' = ⟨.abort, m', [], []⟩ := by
      intro m'
      rw [hvalue]
      rfl
    refine ⟨handled, hinitial.trans (List.prefix_append ..), ?_, ?_⟩
    · rw [accesses_bind, haccesses, accesses_of_run (hproceed _)]
      exact List.append_nil _
    · rw [run_bind]
      refine .inr ⟨congrArg Run.value (hproceed _), hcompares, a, .andThen_silent hlast ?_⟩
      exact congrArg Run.told (hproceed _)

end Handles

/-- A byte compared, whatever the board answers. -/
theorem run_check_pointAt (m : Monitor) (c a : Nat) (b : UInt8) :
    ∃ flow rest told, run (check a b) (m.pointAt c)
        = ⟨flow, ({ m with replies := rest } : Monitor).pointAt (m.advance.next (c % space)), told,
          [request]⟩ ∧
      (flow = .onward ∨ flow = .abort ∧ ∃ before, told = before ++ [failure a]) := by
  obtain ⟨v, rest, told, hfetch⟩ := run_fetchByte_pointAt m c
  rw [check, run_bind, hfetch]
  dsimp only [Run.andThen]
  by_cases hv : v = b
  · rw [if_pos hv]
    exact ⟨.onward, rest, told ++ [], rfl, .inl rfl⟩
  · rw [if_neg hv]
    exact ⟨.abort, rest, told ++ [failure a], rfl, .inr ⟨rfl, told, rfl⟩⟩

theorem accesses_pointFrame (p : Purpose) (address : Nat) (m : Monitor) :
    m.accesses (p.pointFrame address) = [] := by
  cases p with
  | flash => exact m.accesses_bankFrame _
  | _ => exact m.accesses_addressFrame _

theorem accesses_aimFrame (p : Purpose) (base index : Nat) (m : Monitor) :
    m.accesses (p.aimFrame base index) = [] := by
  rw [aimFrame]
  split
  · exact p.accesses_pointFrame _ m
  · rfl

/-- One byte written or compared, with the pointer ready for the next address of the bank. -/
theorem byte_handles (p : Purpose) (m : Monitor) {c base index : Nat}
    (h : p.Aimed c (base + index)) (b : UInt8) :
    p.Handles (m.pointAt c) (p.byte ((base + index) % addressSpace) b)
        [((base + index) % addressSpace, b)] ∧
      ∃ (m' : Monitor) (c' : Nat),
        (run (p.byte ((base + index) % addressSpace) b) (m.pointAt c)).board = m'.pointAt c' ∧
          p.Ready base (index + 1) c' := by
  have hmod := mod_addressSpace (base + index)
  cases hp : p.compares with
  | false =>
    obtain ⟨c', sent, hrun, hready⟩ := run_byte_writes hp m h b
    refine ⟨⟨_, List.prefix_rfl, ?_, .inl ⟨by rw [hrun], rfl⟩⟩, _, c', by rw [hrun], hready⟩
    rw [List.flatMap_singleton, touches, hp, if_neg Bool.false_ne_true]
    cases p with
    | program =>
      have hpointer : (m.pointAt c).pointer = (base + index) % addressSpace % space :=
        Eq.trans h hmod.symm
      rw [byte, accesses_bind_of (run_storeByte _ b), Monitor.accesses_storeFrame, hpointer]
      rfl
    | flash =>
      have haimed : (m.pointAt c).pointer / Monitor.bankSize
          = (base + index) % addressSpace % space / Monitor.bankSize := by
        rw [hmod]
        exact h
      by_cases hff : b = 0xFF
      · rw [byte, if_pos hff, cycles, if_pos hff]
        rfl
      · rw [byte, if_neg hff, cycles, if_neg hff, accesses_bind, accesses_programByte haimed]
        exact List.append_nil _
    | verify => cases hp
    | verifyRom => cases hp
  | true =>
    have haimed := (aimed_of_compares hp _ _).mp h
    obtain ⟨flow, rest, told, hrun, hflow⟩ :=
      run_check_pointAt m c ((base + index) % addressSpace) b
    rw [byte_of_compares hp]
    refine ⟨⟨_, List.prefix_rfl, ?_, ?_⟩, _, _, by rw [hrun], ready_of_next fun hb => ?_⟩
    · have hone : (m.pointAt c).accesses [request] = [.load (c % space)] := rfl
      rw [List.flatMap_singleton, touches, hp, if_pos rfl, hmod, ← haimed, accesses_of_run hrun,
        hone]
    · rw [hrun]
      rcases hflow with hflow | ⟨hflow, hlast⟩
      · exact .inl ⟨hflow, rfl⟩
      · exact .inr ⟨hflow, hp, _, hlast⟩
    · refine (aimed_of_compares hp _ _).mpr ?_
      rw [haimed, m.advance.next_mod hb, Nat.mod_mod]

/-- Bytes written or compared, by induction on what is left of them; the pointer is ready before
each. -/
theorem bytes_handles (p : Purpose) (base total : Nat) (data : Bytes) (index : Nat) (m : Monitor)
    {c : Nat} (h : p.Ready base index c) :
    p.Handles (m.pointAt c) (p.bytes base total index data) (cellsFrom (base + index) data) := by
  induction data generalizing index m c with
  | nil => exact .nil p _
  | cons b rest ih =>
    obtain ⟨told₁, h₁⟩ := p.run_report index total (m.pointAt c)
    obtain ⟨c₂, h₂, haimed⟩ := p.run_aim h m
    obtain ⟨hbyte, m₃, c₃, h₃, hready⟩ := p.byte_handles m haimed b
    have hreport : (p.report index total).accesses (m.pointAt c) = [] := accesses_of_run h₁
    have haim : (p.aim base index).accesses (m.pointAt c) = [] := by
      rw [accesses_of_run h₂, accesses_aimFrame]
    rw [bytes_cons, cellsFrom_cons]
    refine .after hreport ?_
    rw [h₁]
    refine .after haim ?_
    rw [h₂]
    refine hbyte.andThen fun _ => ?_
    rw [h₃]
    exact ih (index + 1) m₃ hready

theorem segment_handles (p : Purpose) (s : Segment) (m : Monitor) :
    p.Handles m (p.segment s) (cellsFrom (p.address s) s.data) := by
  obtain ⟨c, hpoint, haimed⟩ := p.run_point (p.address s) m
  have hnone : (p.point (p.address s)).accesses m = [] := by
    rw [accesses_of_run hpoint, accesses_pointFrame]
  rw [segment]
  refine .after hnone ?_
  rw [hpoint]
  exact p.bytes_handles (p.address s) s.data.length s.data 0 m (.inr haimed)

/-- Segments are handled one after another, wherever the pointer was. -/
theorem segments_handles (p : Purpose) (segments : List Segment) (number : Nat) (m : Monitor) :
    p.Handles m (p.segments number segments) (p.cells segments) := by
  induction segments generalizing number m with
  | nil => exact .nil p m
  | cons s rest ih =>
    rw [segments_cons, cells_cons]
    refine .after (accesses_say _ m) ?_
    refine (p.segment_handles s _).andThen fun _ => ?_
    exact .after (accesses_say _ _) (ih _ _)

/-! ## A whole file -/

/-- The accesses before the first byte. -/
def prelude : Purpose → List BusAccess
  | .flash => (wipeCycles flashBank).map BusAccess.ofCycle
  | .program | .verify | .verifyRom => []

theorem accesses_prepare (p : Purpose) (m : Monitor) : p.prepare.accesses m = p.prelude := by
  cases p with
  | flash =>
    rw [prepare, accesses_bind, accesses_say, accesses_bind, accesses_say,
      accesses_eraseChip (show flashBank < 0x100 by decide)]
    exact List.append_nil _
  | _ => rfl

/-- **All that an object file makes a board access**, whatever the board answers: what comes before
the first byte, and what the bytes amount to, one after another, up to the end or up to one that
fails to compare. -/
theorem accesses_transfer (p : Purpose) (segments : List Segment) (m : Monitor) :
    ∃ handled, handled <+: p.cells segments ∧
      (p.transfer segments).accesses m = p.prelude ++ handled.flatMap p.touches ∧
      (handled = p.cells segments ∨
        p.compares = true ∧ ∃ a, (run (p.transfer segments) m).Last (failure a)) := by
  obtain ⟨handled, hinitial, haccesses, hend⟩ := p.segments_handles segments 0
    (run p.prepare (run halt m).board).board
  have hconclude : ∀ flow m, (p.conclude flow).accesses m = [] := by
    intro flow m
    cases flow with
    | onward => exact accesses_say _ m
    | abort => rfl
  refine ⟨handled, hinitial, ?_, ?_⟩
  · rw [transfer_eq, accesses_bind, accesses_halt, accesses_bind, accesses_prepare, accesses_bind,
      haccesses, hconclude, List.append_nil, List.nil_append]
  · rcases hend with ⟨-, hall⟩ | ⟨hvalue, hcompares, a, hlast⟩
    · exact .inl hall
    · refine .inr ⟨hcompares, a, ?_⟩
      simp only [transfer_eq, run_bind]
      refine .andThen (.andThen (.andThen_silent hlast ?_))
      rw [hvalue]
      rfl

end Purpose

/-! ## The window -/

/-- The address is in the window of the flash chip. -/
def InWindow (a : Nat) : Prop := 0x200000 ≤ a ∧ a ≤ 0x2FFFFF

instance (a : Nat) : Decidable (InWindow a) := inferInstanceAs (Decidable (_ ∧ _))

/-- The window is a number of banks. -/
theorem inWindow_inBank (a x : Nat) :
    InWindow (Monitor.inBank (a / Monitor.bankSize) x) ↔ InWindow a := by
  simp only [InWindow, Monitor.inBank, Monitor.bankSize]
  omega

/-- A segment's bytes are in the window up to the end of its block, and again where the addresses
of the board begin anew. -/
theorem inWindow_flashAddress (a i : Nat) :
    InWindow ((flashAddress a + i) % addressSpace % space) ↔
      (a % flashSpan + i) % space < flashSpan := by
  rw [Purpose.mod_addressSpace]
  simp only [InWindow, flashAddress, flashBank, bankSize, flashSpan, space]
  omega

namespace Purpose

variable {p : Purpose}

theorem prelude_inWindow (p : Purpose) : ∀ x ∈ p.prelude, InWindow x.address := by
  cases p with
  | flash => decide
  | _ => exact fun _ hx => absurd hx List.not_mem_nil

/-- What one byte amounts to is in the window exactly if the byte is, unless it amounts to
nothing. -/
theorem touches_inWindow (hp : p.inFlash = true) (cell : Nat × UInt8) :
    (∀ x ∈ p.touches cell, InWindow x.address) ↔
      ((p = .flash → cell.2 ≠ 0xFF) → InWindow (cell.1 % space)) := by
  cases p with
  | program => cases hp
  | verify => cases hp
  | verifyRom =>
    have htouches : verifyRom.touches cell = [.load (cell.1 % space)] := rfl
    rw [htouches, List.forall_mem_singleton]
    exact ⟨fun h _ => h, fun h => h fun hflash => nomatch hflash⟩
  | flash =>
    by_cases hff : cell.2 = 0xFF
    · have htouches : flash.touches cell = [] := by
        rw [touches, if_neg (show ¬ flash.compares = true from Bool.false_ne_true), cycles,
          if_pos hff]
        rfl
      rw [htouches]
      exact iff_of_true (fun _ hx => absurd hx List.not_mem_nil) fun h => absurd hff (h rfl)
    · have htouches : flash.touches cell
          = (programCycles cell.1 cell.2).map BusAccess.ofCycle := by
        rw [touches, if_neg (show ¬ flash.compares = true from Bool.false_ne_true), cycles,
          if_neg hff]
      have hunlock := inWindow_inBank (cell.1 % space)
      rw [htouches, List.forall_mem_map]
      constructor
      · intro h _
        exact h (cell.1 % space, cell.2) (List.mem_append_right _ (List.mem_singleton_self _))
      · intro h
        have hcell := h fun _ => hff
        have hbank : ∀ x, InWindow (Monitor.inBank (cell.1 % space / Monitor.bankSize) x) :=
          fun x => (hunlock x).mpr hcell
        simp only [programCycles, unlockCycles, List.cons_append, List.nil_append,
          List.forall_mem_cons]
        exact ⟨hbank _, hbank _, hbank _, hcell, fun _ hx => absurd hx List.not_mem_nil⟩

end Purpose

variable {loader : Loader} {words : List String} {file : String} {segments : List Segment}
  {p : Purpose}

/-- **The ROM commands stay in the window exactly as far as the bytes of the file do.**  Whatever
the board answers, they access the window to erase the chip, and then what the bytes of the file
amount to, one after another, up to the end or up to one that fails to compare.  So every access is
in the window exactly if every byte of these is that amounts to anything.

A file whose segments end in the block that they begin in does not lead out of it.  Beyond the end
of its block a segment does.

The memory in the end is what the stores among the accesses make of it. -/
theorem rom_accesses (hp : p.inFlash = true) (s : Session (Tap Monitor))
    (hwords : Command.parse words = some (.transfer p (some file)))
    (hload : loader.load file = .ok segments) :
    ∃ sent handled, (s.dispatch loader words).link.sent = s.link.sent ++ sent ∧
      s.link.link.accesses sent = p.prelude ++ handled.flatMap p.touches ∧
      handled <+: p.cells segments ∧
      (handled = p.cells segments ∨
        p.compares = true ∧
          ∃ a, (s.dispatch loader words).transcript.back? = some (Purpose.failure a)) ∧
      ((∀ x ∈ s.link.link.accesses sent, InWindow x.address) ↔
        ∀ cell ∈ handled, (p = .flash → cell.2 ≠ 0xFF) → InWindow (cell.1 % space)) ∧
      ((∀ seg ∈ segments, seg.address % flashSpan + seg.data.length ≤ flashSpan) →
        ∀ x ∈ s.link.link.accesses sent, InWindow x.address) ∧
      (∀ seg ∈ segments, ∀ i (hi : i < seg.data.length),
        ((flashAddress seg.address + i) % addressSpace, seg.data[i]) ∈ p.cells segments ∧
        (InWindow ((flashAddress seg.address + i) % addressSpace % space) ↔
          (seg.address % flashSpan + i) % space < flashSpan)) ∧
      (s.dispatch loader words).link.link.SameMemory
        (s.link.link.stores ((s.link.link.accesses sent).filterMap BusAccess.stored?)) := by
  have haddress : ∀ seg, p.address seg = flashAddress seg.address := fun seg => if_pos hp
  obtain ⟨-, hboard, htranscript, hsent⟩ := s.dispatch_transfer hwords hload
  obtain ⟨handled, hinitial, haccesses, hend⟩ := p.accesses_transfer segments s.link.link
  have hiff : (∀ x ∈ s.link.link.accesses (run (p.transfer segments) s.link.link).sent,
      InWindow x.address) ↔
      ∀ cell ∈ handled, (p = .flash → cell.2 ≠ 0xFF) → InWindow (cell.1 % space) := by
    show (∀ x ∈ (p.transfer segments).accesses s.link.link, InWindow x.address) ↔ _
    rw [haccesses, List.forall_mem_append, List.forall_mem_flatMap,
      and_iff_right p.prelude_inWindow]
    exact forall₂_congr fun cell _ => Purpose.touches_inWindow hp cell
  refine ⟨_, handled, hsent, haccesses, hinitial, ?_, hiff, fun hfits => hiff.mpr ?_, ?_, ?_⟩
  · rcases hend with hall | ⟨hcompares, a, told, htold⟩
    · exact .inl hall
    · dsimp only at htranscript
      rw [htold] at htranscript
      exact .inr ⟨hcompares, a, Session.back?_of_told htranscript⟩
  · intro cell hcell _
    obtain ⟨seg, hseg, i, hi, rfl⟩ := Purpose.mem_cells_iff.mp (hinitial.subset hcell)
    have hfit := hfits seg hseg
    rw [haddress, inWindow_flashAddress]
    simp only [flashSpan, space] at *
    omega
  · intro seg hseg i hi
    refine ⟨Purpose.mem_cells_iff.mpr ⟨seg, hseg, i, hi, ?_⟩, inWindow_flashAddress _ _⟩
    rw [haddress]
  · have hboard' : (s.dispatch loader words).link.link
        = (run (p.transfer segments) s.link.link).board := hboard
    rw [hboard']
    exact (Monitor.SameMemory.of_core (run_core _ _)).trans (Monitor.receiveAll_stores _ _)

/-- A segment that ends in its block, and one that ends with an erased byte beyond it. -/
theorem rom_accesses_erased :
    let segments : List Segment := [⟨0xFFFFE, [0x41, 0x42]⟩, ⟨0x5FFFFF, [0x43, 0xFF]⟩]
    let s : Session (Tap Monitor) := ⟨⟨{}, #[]⟩, ⟨0⟩, #[], .quiet⟩
    let after := s.dispatch (.fixed segments) ["flash", "a"]
    ∀ x ∈ s.link.link.accesses after.link.sent, InWindow x.address := by
  intro segments s after
  have hwords : Command.parse ["flash", "a"] = some (.transfer .flash (some "a")) := by
    decide +kernel
  have hload : (Loader.fixed segments).load "a" = .ok segments := rfl
  obtain ⟨sent, handled, hsent, -, -, hend, hiff, -⟩ := rom_accesses rfl s hwords hload
  rcases hend with rfl | ⟨hcompares, -⟩
  · have hall : after.link.sent = sent := hsent
    rw [hall, hiff]
    decide
  · cases hcompares

/-- A segment that goes on beyond the end of its block is programmed into RAM behind the window. -/
theorem flash_beyond_window :
    let s : Session (Tap Monitor) := ⟨⟨{}, #[]⟩, ⟨0⟩, #[], .quiet⟩
    let after := s.dispatch (.fixed [⟨0xFFFFF, [0x41, 0x42]⟩]) ["flash", "a"]
    .store 0x300000 0x42 ∈ s.link.link.accesses after.link.sent ∧ ¬ InWindow 0x300000 := by
  intro s after
  have hwords : Command.parse ["flash", "a"] = some (.transfer .flash (some "a")) := by
    decide +kernel
  have hload : (Loader.fixed [⟨0xFFFFF, [0x41, 0x42]⟩]).load "a" = .ok [⟨0xFFFFF, [0x41, 0x42]⟩] :=
    rfl
  obtain ⟨-, -, -, hsent⟩ := s.dispatch_transfer hwords hload
  have hall : after.link.sent
      = (run (Purpose.flash.transfer [⟨0xFFFFF, [0x41, 0x42]⟩]) s.link.link).sent := hsent
  obtain ⟨handled, -, haccesses, hend⟩ :=
    Purpose.flash.accesses_transfer [⟨0xFFFFF, [0x41, 0x42]⟩] s.link.link
  refine ⟨?_, by decide⟩
  rw [hall]
  show _ ∈ (Purpose.flash.transfer _).accesses _
  rw [haccesses]
  rcases hend with rfl | ⟨hcompares, -⟩
  · exact List.mem_append_right _ (by decide)
  · cases hcompares

end BoardConsole.Debugger
