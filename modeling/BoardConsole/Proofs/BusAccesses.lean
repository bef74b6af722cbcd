import BoardConsole.Proofs.Opening
import BoardConsole.Proofs.Transfer

/-!
# Accesses to the bus

Of all the bytes on the wire two marks alone reach memory: the one that stores a number at the
pointer and the one that asks for the byte at the pointer.  Which addresses a board is made to
access can therefore be read off what it is sent, and nothing but its pointer and the digits that it
holds have a part in that.

- `Monitor.accesses`: the accesses that bytes on the wire amount to, first to last.
- `Monitor.receive_access`: a byte changes memory and answers by its access alone, and
  `Monitor.receiveAll_stores`, **bytes change memory by the stores among their accesses**.
- `Procedure.accesses`: the accesses of a run, and `accesses_bind`, those of one after another.
- `Procedure.Stores`: a procedure that stays in a bank and makes certain stores.
-/

namespace BoardConsole

/-- One access to the bus. -/
inductive BusAccess
  /-- A byte stored at an address. -/
  | store (address : Nat) (value : UInt8)
  /-- The byte at an address asked for. -/
  | load (address : Nat)
  deriving DecidableEq, Repr

namespace BusAccess

/-- The address of an access. -/
def address : BusAccess → Nat
  | store address _ => address
  | load address => address

/-- A byte stored with its address. -/
def ofCycle (w : Nat × UInt8) : BusAccess := store w.1 w.2

/-- What is stored, if anything is. -/
def stored? : BusAccess → Option (Nat × UInt8)
  | store address value => some (address, value)
  | load _ => none

end BusAccess

namespace Monitor

/-! ## What bytes access -/

/-- The access that a byte from the wire amounts to. -/
def access? (m : Monitor) (b : UInt8) : Option BusAccess :=
  match Hex.digit? (Bytes.toChar b) with
  | some _ => none
  | none =>
    match b with
    | 0x21 => some (.store m.pointer (UInt8.ofNat m.digits))
    | 0x40 => some (.load m.pointer)
    | _ => none

/-- The accesses that bytes from the wire amount to, first to last. -/
def accesses (m : Monitor) : Bytes → List BusAccess
  | [] => []
  | b :: bs => (m.access? b).toList ++ (m.receive b).accesses bs

theorem accesses_append (m : Monitor) (xs ys : Bytes) :
    m.accesses (xs ++ ys) = m.accesses xs ++ (m.receiveAll xs).accesses ys := by
  induction xs generalizing m with
  | nil => rfl
  | cons x xs ih =>
    show (m.access? x).toList ++ (m.receive x).accesses (xs ++ ys) = _
    rw [ih, ← List.append_assoc]
    rfl

/-- The replies that wait have no part in it. -/
theorem accesses_core (m : Monitor) (bs : Bytes) : m.accesses bs = m.core.accesses bs := by
  induction bs generalizing m with
  | nil => rfl
  | cons b bs ih =>
    have hbyte : m.access? b = m.core.access? b := rfl
    rw [accesses, accesses, hbyte, ih (m.receive b), ih (m.core.receive b), core_receive]

theorem accesses_congr {a b : Monitor} (h : a.core = b.core) (bs : Bytes) :
    a.accesses bs = b.accesses bs := by
  rw [accesses_core a, accesses_core b, h]

/-! ### They are all there is -/

theorem SameMemory.store {a b : Monitor} (h : a.SameMemory b) (address : Nat) (v : UInt8) :
    (a.store address v).SameMemory (b.store address v) := by
  have hstored : ((a.store address v).pointAt 0).core = ((b.store address v).pointAt 0).core := by
    rw [← store_pointAt, ← store_pointAt, core_store, core_store, h.core_pointAt 0]
  obtain ⟨hram, hremap, hchip, hadvance⟩ := SameMemory.of_core hstored
  exact ⟨hram, hremap, hchip, hadvance⟩

theorem SameMemory.stores {a b : Monitor} (h : a.SameMemory b) (ws : List (Nat × UInt8)) :
    (a.stores ws).SameMemory (b.stores ws) := by
  induction ws generalizing a b with
  | nil => exact h
  | cons w ws ih => exact ih (h.store w.1 w.2)

/-- **A byte changes memory and answers by its access alone.** -/
theorem receive_access (m : Monitor) (b : UInt8) :
    (m.receive b).SameMemory (m.stores ((m.access? b).toList.filterMap BusAccess.stored?)) ∧
    (m.receive b).replies = m.replies ++ match m.access? b with
      | some (.load a) => (Hex.digits (m.load a).toNat 2).map Bytes.ofChar
      | _ => [] := by
  unfold receive access?
  cases Hex.digit? (Bytes.toChar b) with
  | some d => exact ⟨⟨rfl, rfl, rfl, rfl⟩, (List.append_nil _).symm⟩
  | none =>
    have hcleared : m.clearDigits.SameMemory m := ⟨rfl, rfl, rfl, rfl⟩
    dsimp only
    unfold mark
    split
    case h_3 =>
      obtain ⟨hram, hremap, hchip, hadvance⟩ :=
        hcleared.store m.pointer (UInt8.ofNat m.digits)
      exact ⟨⟨hram, hremap, hchip, hadvance⟩,
        (m.clearDigits.store_replies _ _).trans (List.append_nil _).symm⟩
    case h_9 hstore hload _ _ _ _ =>
      -- a byte that is no mark of the protocol
      split
      · exact absurd rfl hstore
      · exact absurd rfl hload
      · exact ⟨hcleared, (List.append_nil _).symm⟩
    all_goals exact ⟨⟨rfl, rfl, rfl, rfl⟩, by first | rfl | exact (List.append_nil _).symm⟩

/-- **Bytes change memory by the stores among their accesses**, and in no other way. -/
theorem receiveAll_stores (m : Monitor) (bs : Bytes) :
    (m.receiveAll bs).SameMemory (m.stores ((m.accesses bs).filterMap BusAccess.stored?)) := by
  induction bs generalizing m with
  | nil => exact .refl m
  | cons b bs ih =>
    rw [accesses, List.filterMap_append, stores_append]
    exact (ih (m.receive b)).trans ((m.receive_access b).1.stores _)

/-! ### The frames of the wire -/

section Frames

variable (m : Monitor)

/-- Digits access nothing. -/
theorem accesses_digits (value n : Nat) : m.accesses (Utf8.encode (Hex.digits value n)) = [] := by
  induction n generalizing value with
  | zero => rfl
  | succ n ih =>
    have hone : ∀ (m : Monitor), ∀ d < 16, m.accesses (Utf8.encode [Hex.digit d]) = [] := by
      intro m d hd
      have hnone : m.access? (Bytes.ofChar (Hex.digit d)) = none := by
        unfold access?
        rw [Hex.digit?_digit d hd]
      rw [Hex.utf8_digit d hd, accesses, hnone]
      rfl
    rw [Hex.digits_succ, Utf8.encode_append, accesses_append, ih,
      hone _ _ (Nat.mod_lt _ (by decide))]
    rfl

open Debugger.Procedure

theorem accesses_bankFrame (bank : Nat) : m.accesses (bankFrame bank) = [] := by
  rw [bankFrame, accesses_append, accesses_digits]
  rfl

theorem accesses_offsetFrame (offset : Nat) : m.accesses (offsetFrame offset) = [] := by
  rw [offsetFrame, accesses_append, accesses_digits]
  rfl

theorem accesses_addressFrame (address : Nat) : m.accesses (addressFrame address) = [] := by
  rw [addressFrame, accesses_append, accesses_bankFrame, accesses_offsetFrame]
  rfl

/-- A frame that stores a byte stores it at the pointer, whatever digits were left. -/
theorem accesses_storeFrame (v : UInt8) : m.accesses (storeFrame v) = [.store m.pointer v] := by
  obtain ⟨d, hd, hmod⟩ := m.receiveAll_digits v.toNat 2
  have hv : UInt8.ofNat d = v := by
    rw [UInt8.ofNat_eq_iff_mod_eq_toNat]
    exact hmod.trans (Nat.mod_eq_of_lt v.toNat_lt)
  rw [storeFrame, accesses_append, accesses_digits, hd, List.nil_append, ← hv]
  rfl

end Frames

end Monitor

namespace Debugger.Procedure

open Monitor (inBank space)

variable {α β : Type}

/-! ## What procedures access -/

/-- The accesses of the run of a procedure, first to last. -/
def accesses (p : Procedure α) (m : Monitor) : List BusAccess := m.accesses (run p m).sent

/-- **Accesses compose**: a board is what it was sent, so the second run starts where the bytes of
the first have led. -/
theorem accesses_bind (p : Procedure α) (f : α → Procedure β) (m : Monitor) :
    (p >>= f).accesses m = p.accesses m ++ (f (run p m).value).accesses (run p m).board := by
  have hsent : (run (p >>= f) m).sent
      = (run p m).sent ++ (run (f (run p m).value) (run p m).board).sent := by
    rw [run_bind]
    rfl
  rw [accesses, hsent, Monitor.accesses_append, accesses, accesses,
    Monitor.accesses_congr (run_core p m)]

/-- Accesses compose, with the first run known. -/
theorem accesses_bind_of {p : Procedure α} {f : α → Procedure β} {m m₁ : Monitor} {a : α}
    {told : List Entry} {sent : Bytes} (h : run p m = ⟨a, m₁, told, sent⟩) :
    (p >>= f).accesses m = m.accesses sent ++ (f a).accesses m₁ := by
  rw [accesses_bind, accesses, h]

theorem accesses_of_run {p : Procedure α} {m m₁ : Monitor} {a : α} {told : List Entry}
    {sent : Bytes} (h : run p m = ⟨a, m₁, told, sent⟩) : p.accesses m = m.accesses sent := by
  rw [accesses, h]

theorem accesses_say (text : String) (m : Monitor) : (say text).accesses m = [] :=
  accesses_of_run (run_say text m)

theorem accesses_halt (m : Monitor) : halt.accesses m = [] := accesses_of_run (run_halt m)

/-! ### Stores in a bank -/

/-- With the pointer in a bank, the procedure makes certain stores, and leaves the pointer in that
bank. -/
def Stores (bank : Nat) (p : Procedure Unit) (ws : List (Nat × UInt8)) : Prop :=
  ∀ m : Monitor, m.pointer / Monitor.bankSize = bank →
    p.accesses m = ws.map BusAccess.ofCycle ∧ (run p m).board.pointer / Monitor.bankSize = bank

theorem Stores.andThen {bank : Nat} {p q : Procedure Unit} {ws vs : List (Nat × UInt8)}
    (hp : Stores bank p ws) (hq : Stores bank q vs) :
    Stores bank (p >>= fun _ => q) (ws ++ vs) := by
  intro m hm
  obtain ⟨hfirst, hbetween⟩ := hp m hm
  obtain ⟨hsecond, hafter⟩ := hq _ hbetween
  constructor
  · rw [accesses_bind, hfirst, hsecond, List.map_append]
  · rw [run_bind]
    exact hafter

/-- A byte stored at an offset of the bank that the pointer is in. -/
theorem accesses_sendCommand (m : Monitor) (offset : Nat) (v : UInt8) :
    (sendCommand offset v).accesses m
      = [.store (inBank (m.pointer / Monitor.bankSize) offset) v] := by
  have hb : m.pointer / Monitor.bankSize < 0x100 := Nat.div_lt_of_lt_mul m.pointer_lt
  have hpointed : (m.pointAt (inBank (m.pointer / Monitor.bankSize) offset)).pointer
      = inBank (m.pointer / Monitor.bankSize) offset :=
    Nat.mod_eq_of_lt (Monitor.inBank_lt hb offset)
  rw [sendCommand, accesses_bind_of (run_setOffset m offset), Monitor.accesses_offsetFrame,
    accesses_of_run (run_storeByte _ v), Monitor.accesses_storeFrame, hpointed]
  rfl

theorem sendCommand_stores {bank offset : Nat} (hb : bank < 0x100)
    (ho : (offset + 1) % Monitor.bankSize ≠ 0) (v : UInt8) :
    Stores bank (sendCommand offset v) [(inBank bank offset, v)] := by
  rintro m rfl
  refine ⟨accesses_sendCommand m offset v, ?_⟩
  rw [run_sendCommand]
  exact m.advance.next_inBank hb ho

theorem unlock_stores {bank : Nat} (hb : bank < 0x100) : Stores bank unlock (unlockCycles bank) :=
  (sendCommand_stores hb (by decide) 0xAA).andThen (sendCommand_stores hb (by decide) 0x55)

theorem eraseSetup_stores {bank : Nat} (hb : bank < 0x100) :
    Stores bank eraseSetup (eraseCycles bank) :=
  (unlock_stores hb).andThen
    ((sendCommand_stores hb (by decide) 0x80).andThen (unlock_stores hb))

/-- Programming a byte with the pointer in its bank makes the stores of the sequence. -/
theorem accesses_programByte {m : Monitor} {address : Nat}
    (hm : m.pointer / Monitor.bankSize = address % space / Monitor.bankSize) (v : UInt8) :
    (programByte address v).accesses m = (programCycles address v).map BusAccess.ofCycle := by
  have hb : address % space / Monitor.bankSize < 0x100 :=
    Nat.div_lt_of_lt_mul (Nat.mod_lt _ (by decide))
  have hplace : inBank (address % space / Monitor.bankSize) (address % bankSize)
      = address % space := by
    simp only [inBank, bankSize, Monitor.bankSize, space]
    omega
  rw [programCycles]
  generalize address % space / Monitor.bankSize = bank at hm hb hplace ⊢
  have hopened := (unlock_stores hb).andThen
    (sendCommand_stores hb (show (0x5555 + 1) % Monitor.bankSize ≠ 0 by decide) 0xA0)
  obtain ⟨haccesses, hpointer⟩ := hopened m hm
  have hsplit : programByte address v = (unlock >>= fun _ => sendCommand 0x5555 0xA0) >>= fun _ =>
      sendCommand (address % bankSize) v := (Plan.bind_bind ..).symm
  rw [hsplit, accesses_bind, haccesses, accesses_sendCommand, hpointer, hplace, List.map_append]
  rfl

/-- Erasing the chip makes the stores of the sequence, wherever the pointer was. -/
theorem accesses_eraseChip {bank : Nat} (hb : bank < 0x100) (m : Monitor) :
    (eraseChip bank).accesses m = (wipeCycles bank).map BusAccess.ofCycle := by
  have hbank : ((m.halted.pointAt m.pointer).pointAt (bank * Monitor.bankSize)).pointer
      / Monitor.bankSize = bank := by
    simp only [Monitor.pointAt_pointer, Monitor.bankSize, space]
    omega
  have hcycles := (eraseSetup_stores hb).andThen
    (sendCommand_stores hb (show (0x5555 + 1) % Monitor.bankSize ≠ 0 by decide) 0x10)
  obtain ⟨haccesses, -⟩ := hcycles _ hbank
  have hsplit : eraseChip bank = halt >>= fun _ => selectBank bank >>= fun _ =>
      (eraseSetup >>= fun _ => sendCommand 0x5555 0x10) >>= fun _ => settle 100000 := by
    simp only [Plan.bind_bind]
    rfl
  rw [hsplit, accesses_bind, accesses_halt, run_halt, accesses_bind_of (run_selectBank _ bank),
    Monitor.accesses_bankFrame, accesses_bind, haccesses,
    accesses_of_run (run_settle ..)]
  show (wipeCycles bank).map BusAccess.ofCycle ++ [] = _
  rw [List.append_nil]

end Debugger.Procedure

end BoardConsole
