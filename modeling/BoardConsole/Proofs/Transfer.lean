import BoardConsole.Proofs.Wire

/-!
# Object files on the bus

Writing an object file points the target, sends frames and relies on the pointer to go on by
itself, but only within a bank.  What reaches the board's memory does not depend on any of that: it
is a sequence of stores that the file alone determines.

- `Purpose.cells`: the bytes of an object file with their addresses, in the order of the file.
- `Purpose.cycles`: the stores that one cell amounts to.
- `Purpose.Aimed`: the pointer is where the next byte needs it.
- `Procedure.Puts`: a procedure that stays in a bank and puts certain bytes on the bus.
- `Purpose.run_segments_writes`: **writing segments is the sequence of the stores of their cells**,
  however the pointer goes on at the end of a bank.
-/

namespace BoardConsole

open ObjectFile (Segment addressSpace)

/-! ## Stores one after another -/

namespace Monitor

/-- Bytes put on the bus one after another. -/
def stores (m : Monitor) (ws : List (Nat × UInt8)) : Monitor :=
  ws.foldl (fun m w => m.store w.1 w.2) m

@[simp] theorem stores_nil (m : Monitor) : m.stores [] = m := rfl

@[simp] theorem stores_cons (m : Monitor) (w : Nat × UInt8) (ws : List (Nat × UInt8)) :
    m.stores (w :: ws) = (m.store w.1 w.2).stores ws := rfl

theorem stores_append (m : Monitor) (ws vs : List (Nat × UInt8)) :
    m.stores (ws ++ vs) = (m.stores ws).stores vs :=
  List.foldl_append

theorem stores_pointAt (m : Monitor) (x : Nat) (ws : List (Nat × UInt8)) :
    (m.pointAt x).stores ws = (m.stores ws).pointAt x := by
  induction ws generalizing m with
  | nil => rfl
  | cons w ws ih => rw [stores_cons, stores_cons, store_pointAt, ih]

@[simp] theorem stores_advance (m : Monitor) (ws : List (Nat × UInt8)) :
    (m.stores ws).advance = m.advance := by
  induction ws generalizing m with
  | nil => rfl
  | cons w ws ih => rw [stores_cons, ih, store_advance]

@[simp] theorem stores_replies (m : Monitor) (ws : List (Nat × UInt8)) :
    (m.stores ws).replies = m.replies := by
  induction ws generalizing m with
  | nil => rfl
  | cons w ws ih => rw [stores_cons, ih, store_replies]

/-! ## How the pointer goes on -/

/-- Within a bank the pointer goes on to the next address, whatever it does at the bank's end. -/
theorem Advance.next_mod (adv : Advance) {a : Nat} (h : (a + 1) % bankSize ≠ 0) :
    adv.next (a % space) = (a + 1) % space := by
  cases adv with
  | linear => simp only [Advance.next, Nat.mod_add_mod]
  | banked =>
    simp only [Advance.next, bankSize, space] at *
    omega

/-- Before the last offset of a bank the pointer stays in the bank. -/
theorem Advance.next_inBank (adv : Advance) {bank offset : Nat} (hb : bank < 0x100)
    (ho : (offset + 1) % bankSize ≠ 0) :
    adv.next (inBank bank offset) % space / bankSize = bank := by
  have hlt := adv.next_lt (inBank_lt hb offset)
  have hne : (inBank bank offset + 1) % bankSize ≠ 0 := by
    simp only [inBank, bankSize] at *
    omega
  have hnext := adv.next_mod hne
  rw [Nat.mod_eq_of_lt (inBank_lt hb offset)] at hnext
  rw [Nat.mod_eq_of_lt hlt, hnext]
  simp only [inBank, bankSize, space] at *
  omega

end Monitor

namespace Debugger

/-! ## Procedures that stay in a bank -/

namespace Procedure

open Monitor (inBank space)

/-- With the pointer in a bank, the procedure puts certain bytes on the bus, tells nothing, and
leaves the pointer in that bank. -/
def Puts (bank : Nat) (p : Procedure Unit) (ws : List (Nat × UInt8)) : Prop :=
  ∀ (m : Monitor) (c : Nat), c % space / Monitor.bankSize = bank →
    ∃ c' sent, run p (m.pointAt c) = ⟨(), (m.stores ws).pointAt c', [], sent⟩ ∧
      c' % space / Monitor.bankSize = bank

theorem Puts.andThen {bank : Nat} {p q : Procedure Unit} {ws vs : List (Nat × UInt8)}
    (hp : Puts bank p ws) (hq : Puts bank q vs) : Puts bank (p >>= fun _ => q) (ws ++ vs) := by
  intro m c hc
  obtain ⟨c₁, sent₁, h₁, hc₁⟩ := hp m c hc
  obtain ⟨c₂, sent₂, h₂, hc₂⟩ := hq (m.stores ws) c₁ hc₁
  refine ⟨c₂, sent₁ ++ sent₂, ?_, hc₂⟩
  rw [Monitor.stores_append]
  exact run_bind_of h₁ h₂

/-- A byte stored at an offset of the bank, with where the pointer goes. -/
theorem run_sendCommand_bank (m : Monitor) {c bank : Nat}
    (hc : c % space / Monitor.bankSize = bank) (offset : Nat) (v : UInt8) :
    run (sendCommand offset v) (m.pointAt c)
      = ⟨(), (m.store (inBank bank offset) v).pointAt (m.advance.next (inBank bank offset)), [],
        offsetFrame offset ++ storeFrame v⟩ := by
  rw [run_sendCommand, Monitor.pointAt_pointer, hc, Monitor.store_pointAt,
    Monitor.pointAt_pointAt, Monitor.pointAt_advance]

theorem sendCommand_puts {bank offset : Nat} (hb : bank < 0x100)
    (ho : (offset + 1) % Monitor.bankSize ≠ 0) (v : UInt8) :
    Puts bank (sendCommand offset v) [(inBank bank offset, v)] := by
  intro m c hc
  rw [Monitor.stores_cons, Monitor.stores_nil]
  exact ⟨_, _, run_sendCommand_bank m hc offset v, m.advance.next_inBank hb ho⟩

/-- The stores that open every command of the chip, in a bank. -/
def unlockCycles (bank : Nat) : List (Nat × UInt8) :=
  [(inBank bank 0x5555, 0xAA), (inBank bank 0x2AAA, 0x55)]

/-- The stores that open the commands that erase. -/
def eraseCycles (bank : Nat) : List (Nat × UInt8) :=
  unlockCycles bank ++ ([(inBank bank 0x5555, 0x80)] ++ unlockCycles bank)

/-- The stores that program a byte at an address. -/
def programCycles (address : Nat) (v : UInt8) : List (Nat × UInt8) :=
  unlockCycles (address % space / Monitor.bankSize)
    ++ [(inBank (address % space / Monitor.bankSize) 0x5555, 0xA0)] ++ [(address % space, v)]

theorem unlock_puts {bank : Nat} (hb : bank < 0x100) : Puts bank unlock (unlockCycles bank) :=
  (sendCommand_puts hb (by decide) 0xAA).andThen (sendCommand_puts hb (by decide) 0x55)

theorem eraseSetup_puts {bank : Nat} (hb : bank < 0x100) :
    Puts bank eraseSetup (eraseCycles bank) :=
  (unlock_puts hb).andThen ((sendCommand_puts hb (by decide) 0x80).andThen (unlock_puts hb))

/-- Programming a byte only needs the pointer in the byte's bank. -/
theorem run_programByte (m : Monitor) {c address : Nat}
    (hc : c % space / Monitor.bankSize = address % space / Monitor.bankSize) (v : UInt8) :
    ∃ sent, run (programByte address v) (m.pointAt c)
      = ⟨(), (m.stores (programCycles address v)).pointAt (m.advance.next (address % space)), [],
        sent⟩ := by
  have hb : address % space / Monitor.bankSize < 0x100 :=
    Nat.div_lt_of_lt_mul (Nat.mod_lt _ (by decide))
  -- the last cycle goes to the address itself, by its place in the bank
  have hplace : inBank (address % space / Monitor.bankSize) (address % bankSize)
      = address % space := by
    simp only [inBank, bankSize, Monitor.bankSize, space]
    omega
  rw [programCycles]
  generalize address % space / Monitor.bankSize = bank at hc hb hplace ⊢
  obtain ⟨c₁, sent₁, h₁, hc₁⟩ := unlock_puts hb m c hc
  obtain ⟨c₂, sent₂, h₂, hc₂⟩ := sendCommand_puts hb
    (show (0x5555 + 1) % Monitor.bankSize ≠ 0 by decide) 0xA0 (m.stores (unlockCycles bank)) c₁ hc₁
  have h₃ := run_sendCommand_bank ((m.stores (unlockCycles bank)).stores
    [(inBank bank 0x5555, 0xA0)]) hc₂ (address % bankSize) v
  rw [hplace, Monitor.stores_advance, Monitor.stores_advance] at h₃
  rw [Monitor.stores_append, Monitor.stores_append]
  exact ⟨_, run_bind_of h₁ (run_bind_of h₂ h₃)⟩

end Procedure

/-! ## The bytes of an object file -/

namespace Purpose

open Monitor (space)
open Procedure

/-- The board takes an address of an object file by its low bits. -/
theorem mod_addressSpace (a : Nat) : a % addressSpace % space = a % space :=
  Nat.mod_mod_of_dvd _ (by decide)

/-- Bytes with their addresses from a base on. -/
def cellsFrom (base : Nat) (data : Bytes) : List (Nat × UInt8) :=
  data.mapIdx fun i b => ((base + i) % addressSpace, b)

@[simp] theorem cellsFrom_nil (base : Nat) : cellsFrom base [] = [] := rfl

theorem cellsFrom_cons (base : Nat) (b : UInt8) (data : Bytes) :
    cellsFrom base (b :: data) = (base % addressSpace, b) :: cellsFrom (base + 1) data := by
  rw [cellsFrom, List.mapIdx_cons, cellsFrom]
  simp only [Nat.add_zero, ← Nat.add_assoc, Nat.add_right_comm]

/-- The bytes of an object file with the addresses they go to, in the order of the file. -/
def cells (p : Purpose) (segments : List Segment) : List (Nat × UInt8) :=
  segments.flatMap fun s => cellsFrom (p.address s) s.data

theorem cells_cons (p : Purpose) (s : Segment) (segments : List Segment) :
    p.cells (s :: segments) = cellsFrom (p.address s) s.data ++ p.cells segments :=
  List.flatMap_cons

/-- The stores that writing one cell amounts to.  An erased byte is not programmed. -/
def cycles (p : Purpose) (cell : Nat × UInt8) : List (Nat × UInt8) :=
  match p with
  | .program => [(cell.1 % space, cell.2)]
  | .flash => if cell.2 = 0xFF then [] else programCycles cell.1 cell.2
  | .verify | .verifyRom => []

/-! ## The loop over bytes, step by step -/

/-- The target pointed anew where a byte after the first starts another bank. -/
def aim (p : Purpose) (base index : Nat) : Procedure Unit :=
  if index ≠ 0 ∧ (base + index) % bankSize = 0 then p.point ((base + index) % addressSpace)
  else pure ()

/-- What comes next, unless everything has been called off. -/
def proceed (next : Procedure Flow) : Flow → Procedure Flow
  | .onward => next
  | .abort => pure .abort

theorem bytes_cons (p : Purpose) (base total index : Nat) (b : UInt8) (rest : Bytes) :
    p.bytes base total index (b :: rest)
      = p.report index total >>= fun _ => p.aim base index >>= fun _ =>
        p.byte ((base + index) % addressSpace) b >>=
          proceed (p.bytes base total (index + 1) rest) := by
  have hbank : (base + index) % addressSpace % bankSize = (base + index) % bankSize :=
    Nat.mod_mod_of_dvd _ (by decide)
  have hproceed : (fun flow => match flow with
      | Flow.onward => p.bytes base total (index + 1) rest
      | Flow.abort => pure Flow.abort) = proceed (p.bytes base total (index + 1) rest) :=
    funext fun flow => by cases flow <;> rfl
  rw [bytes, aim, ← hproceed]
  dsimp only
  rw [hbank]
  split <;> rfl

theorem segments_cons (p : Purpose) (number : Nat) (s : Segment) (rest : List Segment) :
    p.segments number (s :: rest)
      = say (p.announcement number s) >>= fun _ => p.segment s >>=
        proceed (say "Segment complete!" >>= fun _ => p.segments (number + 1) rest) := by
  rw [segments]
  refine congrArg (bind _) (funext fun _ => congrArg (bind _) (funext fun flow => ?_))
  cases flow <;> rfl

/-- Progress is told and nothing else. -/
theorem run_report (p : Purpose) (index total : Nat) (m : Monitor) :
    ∃ told, run (p.report index total) m = ⟨(), m, told, []⟩ := by
  rw [report]
  split
  · exact ⟨_, run_progress ..⟩
  · exact ⟨[], rfl⟩

/-! ## Where the pointer has to be -/

/-- The pointer is where the byte at an address needs it.  Programming the chip only needs the
bank. -/
def Aimed (p : Purpose) (pointer address : Nat) : Prop :=
  match p with
  | .flash => pointer % space / Monitor.bankSize = address % space / Monitor.bankSize
  | _ => pointer % space = address % space

theorem Aimed.congr {p : Purpose} {c a a' : Nat} (h : p.Aimed c a) (ha : a % space = a' % space) :
    p.Aimed c a' := by
  cases p <;> simp only [Aimed, ← ha] at * <;> exact h

/-- The pointer on its way: right already, or about to be set because a bank starts here. -/
def Ready (p : Purpose) (base index c : Nat) : Prop :=
  (index ≠ 0 ∧ (base + index) % bankSize = 0) ∨ p.Aimed c (base + index)

theorem ready_of_next {p : Purpose} {base index c : Nat}
    (h : (base + index + 1) % bankSize ≠ 0 → p.Aimed c (base + index + 1)) :
    p.Ready base (index + 1) c := by
  by_cases hb : (base + index + 1) % bankSize = 0
  · exact .inl ⟨Nat.succ_ne_zero _, hb⟩
  · exact .inr (h hb)

/-- The bytes that point the target at an address. -/
def pointFrame (p : Purpose) (address : Nat) : Bytes :=
  match p with
  | .flash => bankFrame (address / bankSize)
  | _ => addressFrame address

theorem run_point (p : Purpose) (address : Nat) (m : Monitor) :
    ∃ c, run (p.point address) m = ⟨(), m.pointAt c, [], p.pointFrame address⟩ ∧
      p.Aimed c address := by
  cases p with
  | flash =>
    refine ⟨_, run_selectBank m _, ?_⟩
    simp only [Aimed, bankSize, Monitor.bankSize, space]
    omega
  | program => exact ⟨_, run_setAddress m _, rfl⟩
  | verify => exact ⟨_, run_setAddress m _, rfl⟩
  | verifyRom => exact ⟨_, run_setAddress m _, rfl⟩

/-- The bytes sent before a byte is handled. -/
def aimFrame (p : Purpose) (base index : Nat) : Bytes :=
  if index ≠ 0 ∧ (base + index) % bankSize = 0 then p.pointFrame ((base + index) % addressSpace)
  else []

/-- Where the pointer was on its way, it is right in the end. -/
theorem run_aim (p : Purpose) {base index c : Nat} (h : p.Ready base index c) (m : Monitor) :
    ∃ c', run (p.aim base index) (m.pointAt c)
        = ⟨(), m.pointAt c', [], p.aimFrame base index⟩ ∧ p.Aimed c' (base + index) := by
  have hmod := mod_addressSpace (base + index)
  by_cases hb : index ≠ 0 ∧ (base + index) % bankSize = 0
  · -- a bank starts here, so wherever the pointer went does not matter
    obtain ⟨c', hc', haimed⟩ := p.run_point ((base + index) % addressSpace) (m.pointAt c)
    refine ⟨c', ?_, haimed.congr hmod⟩
    rw [aim, if_pos hb, aimFrame, if_pos hb]
    exact hc'
  · refine ⟨c, ?_, h.resolve_left hb⟩
    rw [aim, if_neg hb, aimFrame, if_neg hb]
    rfl

/-! ## Writing -/

/-- A byte that is left out leaves the pointer in its bank. -/
theorem ready_of_flash_aimed {c base index : Nat} (h : flash.Aimed c (base + index)) :
    flash.Ready base (index + 1) c := by
  refine ready_of_next fun hb => ?_
  simp only [Aimed, bankSize, Monitor.bankSize, space] at *
  omega

/-- A byte programmed, with the pointer ready for the next address of the bank. -/
theorem run_programByte_ready (m : Monitor) {c base index : Nat}
    (h : flash.Aimed c (base + index)) (b : UInt8) :
    ∃ c' sent, run (programByte ((base + index) % addressSpace) b) (m.pointAt c)
        = ⟨(), (m.stores (programCycles ((base + index) % addressSpace) b)).pointAt c', [], sent⟩ ∧
      flash.Ready base (index + 1) c' := by
  have hmod := mod_addressSpace (base + index)
  have haimed : c % space / Monitor.bankSize
      = (base + index) % addressSpace % space / Monitor.bankSize := by
    rw [hmod]
    exact h
  obtain ⟨sent, hrun⟩ := run_programByte m haimed b
  refine ⟨_, sent, hrun, ready_of_next fun hb => ?_⟩
  -- the last cycle leaves the pointer behind the byte, in its bank unless the bank ends
  show m.advance.next ((base + index) % addressSpace % space) % space / Monitor.bankSize = _
  rw [hmod, m.advance.next_mod hb, Nat.mod_mod]

/-- One byte written, with the pointer ready for the next address of the bank. -/
theorem run_byte_writes {p : Purpose} (hp : p.compares = false) (m : Monitor) {c base index : Nat}
    (h : p.Aimed c (base + index)) (b : UInt8) :
    ∃ c' sent, run (p.byte ((base + index) % addressSpace) b) (m.pointAt c)
        = ⟨.onward, (m.stores (p.cycles ((base + index) % addressSpace, b))).pointAt c', [], sent⟩ ∧
      p.Ready base (index + 1) c' := by
  have hmod := mod_addressSpace (base + index)
  cases p with
  | program =>
    -- the byte goes to the pointer, which is its address
    have hpointer : (m.pointAt c).pointer = (base + index) % space := h
    have hrun := run_storeByte (m.pointAt c) b
    rw [hpointer, Monitor.store_pointAt, Monitor.pointAt_pointAt, Monitor.pointAt_advance] at hrun
    refine ⟨m.advance.next ((base + index) % space), storeFrame b ++ [], ?_,
      ready_of_next fun hb => ?_⟩
    · rw [cycles, hmod]
      exact run_bind_of hrun (run_pure ..)
    · show m.advance.next ((base + index) % space) % space = _
      rw [m.advance.next_mod hb, Nat.mod_mod]
  | flash =>
    by_cases hff : b = 0xFF
    · refine ⟨c, [], ?_, ready_of_flash_aimed h⟩
      rw [cycles, if_pos hff, byte, if_pos hff]
      rfl
    · obtain ⟨c', sent, hrun, hready⟩ := run_programByte_ready m h b
      refine ⟨c', sent ++ [], ?_, hready⟩
      rw [cycles, if_neg hff, byte, if_neg hff]
      exact run_bind_of hrun (run_pure ..)
  | verify => cases hp
  | verifyRom => cases hp

/-- Bytes written, by induction on what is left of them; the pointer is ready before each. -/
theorem run_bytes_writes {p : Purpose} (hp : p.compares = false) (base total : Nat) (data : Bytes)
    (index : Nat) (m : Monitor) {c : Nat} (h : p.Ready base index c) :
    ∃ c' told sent, run (p.bytes base total index data) (m.pointAt c)
      = ⟨.onward, (m.stores ((cellsFrom (base + index) data).flatMap p.cycles)).pointAt c', told,
        sent⟩ := by
  -- the board and the pointer vary, and all that is known of the pointer is that it is ready
  induction data generalizing index m c with
  | nil => exact ⟨c, [], [], rfl⟩
  | cons b rest ih =>
    obtain ⟨told₁, h₁⟩ := p.run_report index total (m.pointAt c)
    obtain ⟨c₂, h₂, haimed⟩ := p.run_aim h m
    obtain ⟨c₃, sent₃, h₃, hready⟩ := run_byte_writes hp m haimed b
    obtain ⟨c₄, told₄, sent₄, h₄⟩ :=
      ih (index + 1) (m.stores (p.cycles ((base + index) % addressSpace, b))) hready
    rw [bytes_cons, cellsFrom_cons, List.flatMap_cons, Monitor.stores_append]
    exact ⟨c₄, _, _, run_bind_of h₁ (run_bind_of h₂ (run_bind_of h₃ h₄))⟩

theorem run_segment_writes {p : Purpose} (hp : p.compares = false) (s : Segment) (m : Monitor) :
    ∃ c told sent, run (p.segment s) m
      = ⟨.onward, (m.stores ((cellsFrom (p.address s) s.data).flatMap p.cycles)).pointAt c, told,
        sent⟩ := by
  obtain ⟨c₁, h₁, haimed⟩ := p.run_point (p.address s) m
  obtain ⟨c₂, told₂, sent₂, h₂⟩ := run_bytes_writes hp (p.address s) s.data.length s.data 0 m
    (c := c₁) (.inr haimed)
  exact ⟨c₂, _, _, run_bind_of h₁ h₂⟩

/-- **Writing segments is the sequence of the stores of their cells**, and it never stops early. -/
theorem run_segments_writes {p : Purpose} (hp : p.compares = false) (segments : List Segment)
    (number : Nat) (m : Monitor) (c : Nat) :
    ∃ c' told sent, run (p.segments number segments) (m.pointAt c)
      = ⟨.onward, (m.stores ((p.cells segments).flatMap p.cycles)).pointAt c', told, sent⟩ := by
  induction segments generalizing number m c with
  | nil => exact ⟨c, [], [], rfl⟩
  | cons s rest ih =>
    obtain ⟨c₁, told₁, sent₁, h₁⟩ := run_segment_writes hp s (m.pointAt c)
    rw [Monitor.stores_pointAt, Monitor.pointAt_pointAt] at h₁
    obtain ⟨c₂, told₂, sent₂, h₂⟩ := ih (number + 1)
      (m.stores ((cellsFrom (p.address s) s.data).flatMap p.cycles)) c₁
    rw [segments_cons, cells_cons, List.flatMap_append, Monitor.stores_append]
    exact ⟨c₂, _, _, run_bind_of (run_say ..)
      (run_bind_of h₁ (run_bind_of (run_say ..) h₂))⟩

/-! ## Whole files -/

/-- What is said at the end, unless everything has been called off. -/
def conclude (p : Purpose) : Flow → Procedure Unit
  | .onward => say p.completion
  | .abort => pure ()

theorem transfer_eq (p : Purpose) (segments : List Segment) :
    p.transfer segments = halt >>= fun _ => p.prepare >>= fun _ =>
      p.segments 0 segments >>= p.conclude := by
  rw [transfer]
  refine congrArg (bind _) (funext fun _ => congrArg (bind _) (funext fun _ =>
    congrArg (bind _) (funext fun flow => ?_)))
  cases flow <;> rfl

/-- A file written, from what its preparation has made of the board. -/
theorem run_transfer_writes {p : Purpose} (hp : p.compares = false) (segments : List Segment)
    {m m₁ : Monitor} {c : Nat} {told : List Entry} {sent : Bytes}
    (hprepare : run p.prepare (m.halted.pointAt m.pointer) = ⟨(), m₁.pointAt c, told, sent⟩) :
    ∃ c' told' sent', run (p.transfer segments) m
      = ⟨(), (m₁.stores ((p.cells segments).flatMap p.cycles)).pointAt c',
        told' ++ [.line p.completion], sent'⟩ := by
  obtain ⟨c', told', sent', h⟩ := run_segments_writes hp segments 0 m₁ c
  refine ⟨c', [] ++ (told ++ told'), Utf8.encode [']', 'R'] ++ (sent ++ (sent' ++ [])), ?_⟩
  rw [transfer_eq, List.append_assoc, List.append_assoc]
  exact run_bind_of (run_halt m) (run_bind_of hprepare (run_bind_of h (run_say ..)))

end Purpose

/-! ## The whole chip erased -/

namespace Procedure

/-- The stores that erase the chip. -/
def wipeCycles (bank : Nat) : List (Nat × UInt8) :=
  eraseCycles bank ++ [(Monitor.inBank bank 0x5555, 0x10)]

theorem run_eraseChip {bank : Nat} (hb : bank < 0x100) (m : Monitor) :
    ∃ c sent, run (eraseChip bank) m
      = ⟨(), (m.halted.stores (wipeCycles bank)).pointAt c, [], sent⟩ := by
  have hbank : bank * Monitor.bankSize % Monitor.space / Monitor.bankSize = bank := by
    simp only [Monitor.bankSize, Monitor.space]
    omega
  have h₁ := run_selectBank (m.halted.pointAt m.pointer) bank
  obtain ⟨c₂, sent₂, h₂, hc₂⟩ := eraseSetup_puts hb m.halted _ hbank
  obtain ⟨c₃, sent₃, h₃, -⟩ :=
    sendCommand_puts hb (show (0x5555 + 1) % Monitor.bankSize ≠ 0 by decide) 0x10
      (m.halted.stores (eraseCycles bank)) c₂ hc₂
  rw [wipeCycles, Monitor.stores_append]
  exact ⟨c₃, _, run_bind_of (run_halt m) (run_bind_of h₁ (run_bind_of h₂
    (run_bind_of h₃ (run_settle ..))))⟩

end Procedure

open Procedure

/-- Before a file is flashed the board is halted once more and the chip erased. -/
theorem Purpose.run_flash_prepare (m : Monitor) :
    ∃ c told sent, run flash.prepare (m.halted.pointAt m.pointer)
      = ⟨(), (m.halted.halted.stores (wipeCycles flashBank)).pointAt c, told, sent⟩ := by
  obtain ⟨c, sent, herase⟩ := run_eraseChip (show flashBank < 0x100 by decide)
    (m.halted.pointAt m.pointer)
  have hhalted : (m.halted.pointAt m.pointer).halted.stores (wipeCycles flashBank)
      = (m.halted.halted.stores (wipeCycles flashBank)).pointAt m.pointer := by
    show (m.halted.halted.pointAt m.pointer).stores _ = _
    exact Monitor.stores_pointAt ..
  rw [hhalted, Monitor.pointAt_pointAt] at herase
  exact ⟨c, _, _, run_bind_of (run_say ..) (run_bind_of herase (run_say ..))⟩

end Debugger

end BoardConsole
