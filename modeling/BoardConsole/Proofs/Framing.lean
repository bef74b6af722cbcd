import BoardConsole.Proofs.Opening

/-!
# Framing is transparent

What the primitives of a session put on the wire is digits and marks, and the board makes numbers
of the digits again.  Neither end can tell: a session that uses the primitives, in any order and
with any arguments, works on the memory and the pointer as if there were no wire in between.

- `Access`: one use of the primitives, and `Access.procedure`, what it puts on the wire.
- `Machine`: memory and a pointer, and `Machine.access`, what a use of the primitives is meant to
  do.
- `Access.refines`: each use of the primitives does what it is meant to do.
- `Session.perform_accesses`: **so does every sequence of them**, whatever was left on the board.
-/

namespace BoardConsole

/-- The low eight bits of a number are what two digits show. -/
theorem Hex.digits_ofNat (value : Nat) :
    digits (UInt8.ofNat (value % 256)).toNat 2 = digits value 2 := by
  rw [UInt8.toNat_ofNat', Nat.mod_mod]
  exact digits_mod value 2

theorem Monitor.store_controls (m : Monitor) (address : Nat) (v : UInt8) :
    (m.store address v).controls = m.controls := by
  cases h : m.chip.part.offset? address with
  | some o => rw [store_of_chip h]
  | none =>
    cases hr : register? address with
    | some r => rw [store_of_register h hr]
    | none => rw [store_of_ram h hr]

/-- Digits alone reach nothing but the number that is being received. -/
theorem Monitor.receiveAll_encode (m : Monitor) (value width : Nat) :
    ∃ d, m.receiveAll (Utf8.encode (Hex.encode value width)) = { m with digits := d } := by
  unfold Hex.encode
  by_cases hwidth : width = 0
  · rw [if_pos hwidth]
    exact ⟨_, m.receiveAll_digit (d := 0) (by decide)⟩
  · rw [if_neg hwidth]
    obtain ⟨d, hd, -⟩ := m.receiveAll_digits value width
    exact ⟨d, hd⟩

namespace Debugger

/-! ## Uses of the primitives -/

/-- One use of the primitives. -/
inductive Access
  /-- Point at the start of a bank. -/
  | selectBank (bank : Nat)
  /-- Point at an address. -/
  | setAddress (address : Nat)
  /-- Store a byte at an offset of the bank. -/
  | sendCommand (offset : Nat) (value : UInt8)
  /-- Store a number of two digits at the pointer. -/
  | store (value : Nat)
  /-- Fetch the byte at the pointer. -/
  | fetch
  /-- Send a number that no mark follows. -/
  | number (value width : Nat)
  /-- Give the target some microseconds. -/
  | settle (micros : Nat)
  deriving DecidableEq, Repr

/-- What a use of the primitives gets: the byte fetched, or nothing. -/
def Access.Answer : Access → Type
  | .fetch => UInt8
  | _ => Unit

/-- The procedure that uses the primitives so. -/
def Access.procedure : (a : Access) → Procedure a.Answer
  | .selectBank bank => Procedure.selectBank bank
  | .setAddress address => Procedure.setAddress address
  | .sendCommand offset value => Procedure.sendCommand offset value
  | .store value => do
    Procedure.sendHex value 2
    Procedure.send ['!']
  | .fetch => Procedure.fetchByte
  | .number value width => Procedure.sendHex value width
  | .settle micros => Procedure.settle micros

/-- Uses of the primitives one after another, each of which may depend on the bytes fetched so
far. -/
abbrev Accesses := Plan Access.Answer

/-- The procedure that uses the primitives so. -/
def Accesses.procedure {α : Type} : Accesses α → Procedure α
  | .done a => pure a
  | .step access next => do
    let answer ← access.procedure
    procedure (next answer)

/-! ## The machine behind the wire -/

/-- Memory and a pointer. -/
structure Machine where
  /-- Bytes stored in RAM. -/
  ram : Std.TreeMap Nat UInt8
  /-- The registers of the memory mapper. -/
  remap : Vector UInt8 Monitor.mapperCount
  /-- The flash chip. -/
  chip : Monitor.Chip
  /-- The address of the next access. -/
  pointer : Nat

namespace Machine

/-- A board with the memory of the machine. -/
def board (k : Machine) : Monitor := { ram := k.ram, remap := k.remap, chip := k.chip }

/-- The memory and the pointer of a board. -/
def of (m : Monitor) : Machine := ⟨m.ram, m.remap, m.chip, m.pointer⟩

/-- The machine pointed at an address. -/
def pointAt (k : Machine) (address : Nat) : Machine := { k with pointer := address }

/-- The byte at the pointer. -/
def load (k : Machine) : UInt8 := k.board.load k.pointer

/-- The pointer moved on. -/
def next (k : Machine) : Machine := k.pointAt ((k.pointer + 1) % 2 ^ 24)

/-- A byte stored at the pointer, and the pointer moved on. -/
def store (k : Machine) (value : UInt8) : Machine :=
  let board := k.board.store k.pointer value
  next ⟨board.ram, board.remap, board.chip, k.pointer⟩

/-- What a use of the primitives is meant to do. -/
def access (k : Machine) : (a : Access) → a.Answer × Machine
  | .selectBank bank => ((), k.pointAt (bank % 256 * 65536))
  | .setAddress address => ((), k.pointAt (address % 2 ^ 24))
  | .sendCommand offset value =>
    ((), (k.pointAt (k.pointer / 65536 * 65536 + offset % 65536)).store value)
  | .store value => ((), k.store (UInt8.ofNat (value % 256)))
  | .fetch => (k.load, k.next)
  | .number _ _ => ((), k)
  | .settle _ => ((), k)

/-- What uses of the primitives are meant to do, first to last. -/
def perform {α : Type} (k : Machine) : Accesses α → α × Machine
  | .done a => (a, k)
  | .step access next => (k.access access).2.perform (next (k.access access).1)

end Machine

/-! ## One use -/

/-- A run on a board does what is meant on its memory and its pointer.  Nothing is told, and no
answer is left. -/
structure Refines {α : Type} (m : Monitor) (out : α × Machine) (r : Run α) : Prop where
  value : r.value = out.1
  machine : Machine.of r.board = out.2
  replies : r.board.replies = []
  advance : r.board.advance = m.advance
  controls : r.board.controls = m.controls
  told : r.told = []

section

variable {m : Monitor}

theorem Machine.board_of (hadvance : m.advance = .linear) :
    (Machine.of m).board = m.core.pointAt 0 := by
  simp only [Machine.of, Machine.board, Monitor.core, Monitor.pointAt, hadvance]
  rfl

/-- The machine loads what the board loads. -/
theorem Machine.load_of (hadvance : m.advance = .linear) :
    (Machine.of m).load = m.load m.pointer := by
  rw [Machine.load, Machine.board_of hadvance]
  rfl

theorem Machine.of_pointAt (address : Nat) :
    Machine.of (m.pointAt address) = (Machine.of m).pointAt (address % 2 ^ 24) := rfl

/-- A board of one pointer after another goes on as the machine does. -/
theorem Machine.of_next (hadvance : m.advance = .linear) (address : Nat) :
    Machine.of (m.pointAt (m.advance.next address)) = ((Machine.of m).pointAt address).next := by
  have hnext : m.advance.next address % 2 ^ 24 = (address + 1) % 2 ^ 24 := by
    rw [hadvance]
    exact Nat.mod_mod _ _
  rw [Machine.of_pointAt, hnext]
  rfl

/-- The machine stores what the board stores. -/
theorem Machine.of_store (hadvance : m.advance = .linear) (address : Nat) (v : UInt8) :
    Machine.of ((m.store address v).pointAt (m.advance.next address))
      = ((Machine.of m).pointAt address).store v := by
  have hboard : ((Machine.of m).pointAt address).board = m.core.pointAt 0 :=
    Machine.board_of hadvance
  have hstored : (m.core.pointAt 0).store address v = (m.store address v).core.pointAt 0 := by
    rw [Monitor.store_pointAt, ← Monitor.core_store]
  have hnext := Machine.of_next ((m.store_advance address v).trans hadvance) address
  rw [m.store_advance address v] at hnext
  rw [hnext, Machine.store, hboard]
  simp only [Machine.pointAt, hstored]
  rfl

/-- A primitive that only sends something. -/
theorem Refines.of_run {α : Type} {p : Procedure α} {a : α} {m' : Monitor} {k : Machine}
    {sent : Bytes} (hrun : p.run m = ⟨a, m', [], sent⟩) (hmachine : Machine.of m' = k)
    (hreplies : m'.replies = []) (hadvance : m'.advance = m.advance)
    (hcontrols : m'.controls = m.controls) : Refines m (a, k) (p.run m) := by
  rw [hrun]
  exact ⟨rfl, hmachine, hreplies, hadvance, hcontrols, rfl⟩

/-- **Each use of the primitives does what it is meant to do**, if no answer waits. -/
theorem Access.refines (a : Access) (hreplies : m.replies = []) (hadvance : m.advance = .linear) :
    Refines m ((Machine.of m).access a) (a.procedure.run m) := by
  have hstore_replies : ∀ x v, (m.store x v).replies = [] := fun x v =>
    (m.store_replies x v).trans hreplies
  cases a with
  | selectBank bank =>
    have hbank : bank * Monitor.bankSize % 2 ^ 24 = bank % 256 * 65536 := by
      simp only [Monitor.bankSize]
      omega
    refine .of_run (Procedure.run_selectBank m bank) ?_ hreplies rfl rfl
    rw [Machine.of_pointAt, hbank]
  | setAddress address => exact .of_run (Procedure.run_setAddress m address) rfl hreplies rfl rfl
  | sendCommand offset v =>
    exact .of_run (Procedure.run_sendCommand m offset v) (Machine.of_store hadvance _ v)
      (hstore_replies _ v) (m.store_advance _ v) (m.store_controls _ v)
  | store value =>
    have hprocedure : Access.procedure (.store value)
        = Procedure.storeByte (UInt8.ofNat (value % 256)) := by
      have hdigits : Hex.encode (UInt8.ofNat (value % 256)).toNat 2 = Hex.encode value 2 :=
        Hex.digits_ofNat value
      rw [Procedure.storeByte, Procedure.sendHex, hdigits]
      rfl
    show Refines m _ ((Access.procedure (.store value)).run m)
    rw [hprocedure]
    exact .of_run (Procedure.run_storeByte m _) (Machine.of_store hadvance _ _)
      (hstore_replies _ _) (m.store_advance _ _) (m.store_controls _ _)
  | fetch =>
    have hload := Machine.load_of hadvance
    rw [Machine.access, hload]
    exact .of_run (Procedure.run_fetchByte m hreplies) (Machine.of_next hadvance _) hreplies rfl rfl
  | number value width =>
    obtain ⟨d, hd⟩ := m.receiveAll_encode value width
    have hrun : (Access.procedure (.number value width)).run m
        = ⟨(), { m with digits := d }, [], Utf8.encode (Hex.encode value width)⟩ := by
      rw [← hd]
      exact Procedure.run_send ..
    exact .of_run hrun rfl hreplies rfl rfl
  | settle micros => exact .of_run (Procedure.run_settle micros m) rfl hreplies rfl rfl

end

/-! ## Any number of uses -/

theorem Refines.andThen {α β : Type} {m : Monitor} {k : α × Machine} {out : β × Machine}
    {r : Run α} {next : α → Monitor → Run β} (h : Refines m k r)
    (h' : Refines r.board out (next k.1 r.board)) : Refines m out (r.andThen next) := by
  have hvalue : (r.andThen next).value = (next k.1 r.board).value := by
    rw [Run.andThen, h.value]
  have hboard : (r.andThen next).board = (next k.1 r.board).board := by
    rw [Run.andThen, h.value]
  have htold : (r.andThen next).told = r.told ++ (next k.1 r.board).told := by
    rw [Run.andThen, h.value]
  refine ⟨?_, ?_, ?_, ?_, ?_, ?_⟩
  · rw [hvalue, h'.value]
  · rw [hboard, h'.machine]
  · rw [hboard, h'.replies]
  · rw [hboard, h'.advance, h.advance]
  · rw [hboard, h'.controls, h.controls]
  · rw [htold, h'.told, h.told]
    rfl

/-- **Uses of the primitives do what they are meant to do**, however many. -/
theorem Accesses.refines {α : Type} (p : Accesses α) {m : Monitor} (hreplies : m.replies = [])
    (hadvance : m.advance = .linear) :
    Refines m ((Machine.of m).perform p) (p.procedure.run m) := by
  induction p generalizing m with
  | done a => exact ⟨rfl, rfl, hreplies, rfl, rfl, rfl⟩
  | step access next ih =>
    have hone := access.refines hreplies hadvance
    rw [Accesses.procedure, Procedure.run_bind]
    -- the rest starts on the board that the first use has left, without answers again
    have hrest := ih ((Machine.of m).access access).1 hone.replies (hone.advance.trans hadvance)
    rw [hone.machine] at hrest
    exact hone.andThen hrest

namespace Session

/-- A procedure on a link without a tap comes to its run. -/
theorem perform_run_monitor {α : Type} (p : Procedure α) (s : Session Monitor) :
    (perform p s).1 = (p.run s.link).value ∧ (perform p s).2.link = (p.run s.link).board ∧
      (perform p s).2.transcript.toList = s.transcript.toList ++ (p.run s.link).told := by
  have h := perform_run p s.tapped
  have huntap := perform_untap p s.tapped
  rw [untap_tapped] at huntap
  rw [huntap]
  exact ⟨h.value, h.board, h.transcript⟩

/-- **Framing is transparent.**  Whatever the pointer is and whatever digits are left on a board
without answers, a session that uses the primitives gets the bytes that the machine gives, leaves
the machine's memory and pointer, and leaves no answer. -/
theorem perform_accesses {α : Type} (s : Session Monitor) (hreplies : s.link.replies = [])
    (hadvance : s.link.advance = .linear) (p : Accesses α) :
    (s.perform p.procedure).1 = ((Machine.of s.link).perform p).1 ∧
      Machine.of (s.perform p.procedure).2.link = ((Machine.of s.link).perform p).2 ∧
      (s.perform p.procedure).2.link.replies = [] ∧
      (s.perform p.procedure).2.link.controls = s.link.controls ∧
      (s.perform p.procedure).2.transcript = s.transcript := by
  have h := p.refines hreplies hadvance
  obtain ⟨hvalue, hboard, htold⟩ := perform_run_monitor p.procedure s
  refine ⟨hvalue.trans h.value, ?_, ?_, ?_, ?_⟩
  · rw [hboard, h.machine]
  · rw [hboard, h.replies]
  · rw [hboard, h.controls]
  · rw [h.told, List.append_nil] at htold
    exact Array.toList_inj.mp htold

/-- Digits left on the board and bits beyond the width of an argument are as good as not there, and
the pointer wraps around. -/
theorem perform_accesses_leftover :
    let s : Session Monitor := ⟨{ pointer := 0xFFFFFF, digits := 0xDEADBEEF }, ⟨0⟩, #[], .quiet⟩
    let p : Accesses UInt8 :=
      .step (.number 0x77 2) fun _ => .step (.store 0xFFFF12AB) fun _ =>
        .step (.setAddress 0x77FFFFFF) fun _ => .step .fetch fun b => .done b
    s.link.replies = [] ∧ s.link.advance = .linear ∧ (s.perform p.procedure).1 = 0xAB ∧
      (s.perform p.procedure).2.link.pointer = 0 := by
  intro s p
  obtain ⟨hvalue, hmachine, -⟩ := s.perform_accesses rfl rfl p
  have hpointer : ((Machine.of s.link).perform p).2.pointer = 0 := by decide +kernel
  rw [← hmachine] at hpointer
  exact ⟨rfl, rfl, hvalue.trans (by decide +kernel), hpointer⟩

end Session

end Debugger

end BoardConsole
