import BoardConsole.Proofs.Encoding
import BoardConsole.Proofs.Run
import Mathlib.Algebra.Group.Nat.Defs

/-!
# The wire protocol, primitive by primitive

Numbers go over the wire as digits of fixed width, and the monitor shifts digits into a register
that may still hold stale ones.  Every mark masks the register to the width that was sent, so what
a primitive does depends on its arguments and never on what was left behind.

- `Monitor.pointAt`: the board with the pointer at an address and no digits pending.
- `Monitor.receiveAll_digits`: digits of fixed width leave a register that agrees with the number
  modulo that width, whatever it held before.
- `Procedure.run_setAddress`, `run_storeByte`, `run_fetchByte`, ...: **the primitives as accesses
  to memory**.  Stores commute with the pointer, so later developments speak of the memory alone.
-/

namespace BoardConsole

open Debugger

/-! ## Text on the wire -/

namespace Hex

/-- A digit is one byte on the wire. -/
theorem utf8_digit : ∀ d < 16, Utf8.encode [digit d] = [Bytes.ofChar (digit d)] := by decide

/-- The value of a digit comes back from its byte. -/
theorem digit?_digit : ∀ d < 16, digit? (Bytes.toChar (Bytes.ofChar (digit d))) = some d := by
  decide

/-- So does it from the digit as a character. -/
theorem digit?_digit_char : ∀ d < 16, digit? (digit d) = some d := by decide

/-- So many digits show a number modulo the width. -/
theorem digits_mod (value n : Nat) : digits (value % 16 ^ n) n = digits value n := by
  induction n generalizing value with
  | zero => rfl
  | succ n ih =>
    have hlow : value % 16 ^ (n + 1) % 16 = value % 16 :=
      Nat.mod_mod_of_dvd _ (Nat.pow_succ' ▸ Nat.dvd_mul_right ..)
    have hhigh : value % 16 ^ (n + 1) / 16 = value / 16 % 16 ^ n := by
      rw [Nat.pow_succ', Nat.mod_mul_right_div_self]
    rw [digits_succ, digits_succ, hlow, hhigh, ih]

end Hex

namespace Monitor

/-! ## The board pointed at an address -/

/-- The board with the pointer at an address and no digits pending. -/
def pointAt (m : Monitor) (address : Nat) : Monitor :=
  { m with
    pointer := address % space
    pointer_lt := Nat.mod_lt _ (by decide)
    digits := 0 }

section pointAt

variable (m : Monitor) (a b : Nat)

@[simp] theorem pointAt_pointer : (m.pointAt a).pointer = a % space := rfl
@[simp] theorem pointAt_ram : (m.pointAt a).ram = m.ram := rfl
@[simp] theorem pointAt_remap : (m.pointAt a).remap = m.remap := rfl
@[simp] theorem pointAt_chip : (m.pointAt a).chip = m.chip := rfl
@[simp] theorem pointAt_replies : (m.pointAt a).replies = m.replies := rfl
@[simp] theorem pointAt_advance : (m.pointAt a).advance = m.advance := rfl
@[simp] theorem pointAt_load : (m.pointAt a).load b = m.load b := rfl
@[simp] theorem pointAt_pointAt : (m.pointAt a).pointAt b = m.pointAt b := rfl

theorem pointAt_congr {a b : Nat} (h : a % space = b % space) : m.pointAt a = m.pointAt b := by
  simp only [pointAt, h]

theorem clearDigits_eq (m : Monitor) : m.clearDigits = m.pointAt m.pointer := by
  simp only [clearDigits, pointAt, Nat.mod_eq_of_lt m.pointer_lt]

theorem step_pointAt (m : Monitor) (a : Nat) :
    (m.pointAt a).step = m.pointAt (m.advance.next (a % space)) := by
  have hlt : m.advance.next (a % space) < space :=
    m.advance.next_lt (Nat.mod_lt _ (by decide))
  simp only [step, pointAt, Nat.mod_eq_of_lt hlt]

end pointAt

/-! ## Stores commute with the pointer -/

theorem store_of_chip {m : Monitor} {a o : Nat} (h : m.chip.part.offset? a = some o) (v : UInt8) :
    m.store a v = { m with chip := m.chip.write o v } := by
  simp only [store, h]

theorem store_of_register {m : Monitor} {a : Nat} {r : Fin mapperCount}
    (h : m.chip.part.offset? a = none) (hr : register? a = some r) (v : UInt8) :
    m.store a v = { m with remap := m.remap.set r v r.isLt } := by
  simp only [store, h, hr]

theorem store_of_ram {m : Monitor} {a : Nat} (h : m.chip.part.offset? a = none)
    (hr : register? a = none) (v : UInt8) :
    m.store a v = { m with ram := m.ram.insert a v } := by
  simp only [store, h, hr]

theorem store_pointAt (m : Monitor) (x a : Nat) (v : UInt8) :
    (m.pointAt x).store a v = (m.store a v).pointAt x := by
  -- where a store goes is decided by the address and the kind of chip, which both boards share
  cases h : m.chip.part.offset? a with
  | some o =>
    rw [store_of_chip h, store_of_chip (m := m.pointAt x) h]
    rfl
  | none =>
    cases hr : register? a with
    | some r =>
      rw [store_of_register h hr, store_of_register (m := m.pointAt x) h hr]
      rfl
    | none =>
      rw [store_of_ram h hr, store_of_ram (m := m.pointAt x) h hr]
      rfl

/-- A store leaves alone everything but the memory. -/
theorem store_frame (m : Monitor) (a : Nat) (v : UInt8) :
    (m.store a v).pointer = m.pointer ∧ (m.store a v).replies = m.replies ∧
      (m.store a v).advance = m.advance := by
  cases h : m.chip.part.offset? a with
  | some o =>
    rw [store_of_chip h]
    exact ⟨rfl, rfl, rfl⟩
  | none =>
    cases hr : register? a with
    | some r =>
      rw [store_of_register h hr]
      exact ⟨rfl, rfl, rfl⟩
    | none =>
      rw [store_of_ram h hr]
      exact ⟨rfl, rfl, rfl⟩

@[simp] theorem store_pointer (m : Monitor) (a : Nat) (v : UInt8) :
    (m.store a v).pointer = m.pointer := (m.store_frame a v).1

@[simp] theorem store_replies (m : Monitor) (a : Nat) (v : UInt8) :
    (m.store a v).replies = m.replies := (m.store_frame a v).2.1

@[simp] theorem store_advance (m : Monitor) (a : Nat) (v : UInt8) :
    (m.store a v).advance = m.advance := (m.store_frame a v).2.2

/-! ## Bytes received -/

theorem receiveAll_append (m : Monitor) (xs ys : Bytes) :
    m.receiveAll (xs ++ ys) = (m.receiveAll xs).receiveAll ys :=
  List.foldl_append

theorem receiveAll_digit (m : Monitor) {d : Nat} (h : d < 16) :
    m.receiveAll (Utf8.encode [Hex.digit d]) = m.pushDigit d := by
  rw [Hex.utf8_digit d h]
  show m.receive _ = _
  rw [receive, Hex.digit?_digit d h]

/-- **Digits of fixed width**: the register agrees with the number modulo the width, as far as it
holds so many digits, whatever it held before. -/
theorem receiveAll_digits (m : Monitor) (value n : Nat) :
    ∃ d, m.receiveAll (Utf8.encode (Hex.digits value n)) = { m with digits := d } ∧
      d % 16 ^ min n 8 = value % 16 ^ min n 8 := by
  induction n generalizing value with
  | zero => exact ⟨m.digits, rfl, by rw [Nat.zero_min, Nat.pow_zero, Nat.mod_one, Nat.mod_one]⟩
  | succ n ih =>
    obtain ⟨d, hd, hmod⟩ := ih (value / 16)
    refine ⟨(16 * d + value % 16) % 0x100000000, ?_, ?_⟩
    · rw [Hex.digits_succ, Utf8.encode_append, receiveAll_append, hd,
        receiveAll_digit _ (Nat.mod_lt _ (by decide))]
      rfl
    · rcases Nat.lt_or_ge n 8 with hn | hn
      · -- the register drops digits beyond the eighth only
        have hdvd : 16 ^ (n + 1) ∣ 16 ^ 8 := Nat.pow_dvd_pow 16 hn
        have hlow : (16 * d + value % 16) % 16 = value % 16 := by omega
        have hhigh : (16 * d + value % 16) / 16 = d := by omega
        rw [Nat.min_eq_left (Nat.le_of_lt hn)] at hmod
        rw [Nat.min_eq_left hn, show (0x100000000 : Nat) = 16 ^ 8 from rfl,
          Nat.mod_mod_of_dvd _ hdvd, Nat.pow_succ, Nat.mul_comm (16 ^ n), Nat.mod_mul,
          Nat.mod_mul, hlow, hhigh, hmod]
      · rw [Nat.min_eq_right hn, show (16 : Nat) ^ 8 = 0x100000000 from rfl] at hmod
        rw [Nat.min_eq_right (Nat.le_succ_of_le hn),
          show (16 : Nat) ^ 8 = 0x100000000 from rfl]
        omega

/-- A mark uses the register up. -/
theorem receive_mark (m : Monitor) {b : UInt8} (h : Hex.digit? (Bytes.toChar b) = none) :
    m.receive b = m.clearDigits.mark m.digits b := by
  rw [receive, h]

/-- The marks of the protocol are no digits. -/
theorem receiveAll_digits_mark (m : Monitor) (value : Nat) {n : Nat} (hn : n ≤ 8) {c : Char}
    {b : UInt8} (hc : Utf8.encode [c] = [b]) (hb : Hex.digit? (Bytes.toChar b) = none) :
    ∃ d, (m.receiveAll (Utf8.encode (Hex.digits value n))).receiveAll (Utf8.encode [c])
        = m.clearDigits.mark d b ∧ d % 16 ^ n = value % 16 ^ n := by
  obtain ⟨d, hd, hmod⟩ := m.receiveAll_digits value n
  rw [Nat.min_eq_left hn] at hmod
  refine ⟨d, ?_, hmod⟩
  rw [hd, hc]
  exact receive_mark _ hb

theorem receiveAll_bank (m : Monitor) (bank : Nat) :
    (m.receiveAll (Utf8.encode (Hex.digits bank 2))).receiveAll (Utf8.encode [':'])
      = m.pointAt (bank * bankSize) := by
  obtain ⟨d, hd, hmod⟩ := m.receiveAll_digits_mark bank (n := 2) (by decide) (c := ':') rfl rfl
  have hp : d % 0x100 * bankSize = bank * bankSize % space := by
    simp only [bankSize, space]
    omega
  rw [hd]
  show m.clearDigits.selectBank d = _
  simp only [selectBank, clearDigits, pointAt, hp]

theorem receiveAll_offset (m : Monitor) (offset : Nat) :
    (m.receiveAll (Utf8.encode (Hex.digits offset 4))).receiveAll (Utf8.encode ['#'])
      = m.pointAt (m.pointer / bankSize * bankSize + offset % bankSize) := by
  obtain ⟨d, hd, hmod⟩ := m.receiveAll_digits_mark offset (n := 4) (by decide) (c := '#') rfl rfl
  have hp : m.pointer / bankSize * bankSize + d % bankSize
      = (m.pointer / bankSize * bankSize + offset % bankSize) % space := by
    have := m.pointer_lt
    simp only [bankSize, space] at *
    omega
  rw [hd]
  show m.clearDigits.setOffset d = _
  simp only [setOffset, clearDigits, pointAt, hp]

theorem receiveAll_store (m : Monitor) (v : UInt8) :
    (m.receiveAll (Utf8.encode (Hex.digits v.toNat 2))).receiveAll (Utf8.encode ['!'])
      = (m.store m.pointer v).pointAt (m.advance.next m.pointer) := by
  obtain ⟨d, hd, hmod⟩ := m.receiveAll_digits_mark v.toNat (n := 2) (by decide) (c := '!') rfl rfl
  -- stale digits can only be above the two that were sent
  have hv : UInt8.ofNat d = v := by
    rw [UInt8.ofNat_eq_iff_mod_eq_toNat]
    exact hmod.trans (Nat.mod_eq_of_lt v.toNat_lt)
  rw [hd]
  show (m.clearDigits.store m.pointer (UInt8.ofNat d)).step = _
  rw [hv, clearDigits_eq, store_pointAt, step_pointAt, store_advance, Nat.mod_eq_of_lt m.pointer_lt]

/-- The byte at the pointer, as the two digits that answer a request for it. -/
theorem receiveAll_fetch (m : Monitor) :
    m.receiveAll (Utf8.encode ['@'])
      = { m with replies := m.replies ++ (Hex.digits (m.load m.pointer).toNat 2).map Bytes.ofChar
        }.pointAt (m.advance.next m.pointer) := by
  show m.clearDigits.answer.step = _
  have hp : m.clearDigits.pointer = m.pointer := rfl
  simp only [step, answer, pointAt, hp, Nat.mod_eq_of_lt (m.advance.next_lt m.pointer_lt)]
  rfl

/-- The board halted and reset. -/
def halted (m : Monitor) : Monitor :=
  { m with
    controls := { m.controls with stop := m.controls.stop + 1, reset := m.controls.reset + 1 } }

theorem receiveAll_halt (m : Monitor) :
    m.receiveAll (Utf8.encode [']', 'R']) = m.halted.pointAt m.pointer := by
  have h : m.halted.pointAt m.pointer = { m.clearDigits with controls := m.halted.controls } := by
    simp only [clearDigits, halted, pointAt, Nat.mod_eq_of_lt m.pointer_lt]
  rw [h]
  rfl

/-- The address of an offset in a bank. -/
def inBank (bank offset : Nat) : Nat := bank * bankSize + offset % bankSize

theorem inBank_lt {bank : Nat} (h : bank < 0x100) (offset : Nat) : inBank bank offset < space := by
  have := Nat.mod_lt offset (show 0 < bankSize by decide)
  simp only [inBank, bankSize, space] at *
  omega

end Monitor

/-! ## A reply comes back as the byte it was -/

/-- The digits of a byte decode to it. -/
theorem Hex.decodeByte_digits (b : UInt8) :
    decodeByte ((digits b.toNat 2).map Bytes.ofChar) = .ok b := by
  have hlow : b.toNat % 16 < 16 := Nat.mod_lt _ (by decide)
  have hhigh : b.toNat / 16 % 16 < 16 := Nat.mod_lt _ (by decide)
  have hb := b.toNat_lt
  show decodeByte
    [Bytes.ofChar (digit (b.toNat / 16 % 16)), Bytes.ofChar (digit (b.toNat % 16))] = _
  simp only [decodeByte, digit?_digit _ hlow, digit?_digit _ hhigh]
  rw [show 16 * (b.toNat / 16 % 16) + b.toNat % 16 = b.toNat by omega, UInt8.ofNat_toNat]

/-- A reply that is all that waits is taken whole. -/
theorem Monitor.readReply_digits (m : Monitor) (b : UInt8)
    (h : m.replies = (Hex.digits b.toNat 2).map Bytes.ofChar) :
    Session.readReply m = (.ok b, { m with replies := [] }) := by
  have hpair : Session.readPair m
      = (.ok ((Hex.digits b.toNat 2).map Bytes.ofChar), { m with replies := [] }) := by
    simp only [Session.readPair, Link.read, Monitor.drain, h]
    rfl
  rw [Session.readReply, hpair]
  dsimp only
  rw [Hex.decodeByte_digits]

/-! ## The primitives as accesses to memory -/

namespace Debugger.Procedure

open Monitor (inBank)

/-- The bytes that select a bank. -/
def bankFrame (bank : Nat) : Bytes := Utf8.encode (Hex.digits bank 2) ++ Utf8.encode [':']

/-- The bytes that select an offset in the bank. -/
def offsetFrame (offset : Nat) : Bytes := Utf8.encode (Hex.digits offset 4) ++ Utf8.encode ['#']

/-- The bytes that select an address. -/
def addressFrame (address : Nat) : Bytes := bankFrame (address / bankSize) ++ offsetFrame address

/-- The bytes that store a byte. -/
def storeFrame (v : UInt8) : Bytes := Utf8.encode (Hex.digits v.toNat 2) ++ Utf8.encode ['!']

variable (m : Monitor)

theorem run_selectBank (bank : Nat) :
    run (selectBank bank) m = ⟨(), m.pointAt (bank * Monitor.bankSize), [], bankFrame bank⟩ := by
  rw [← Monitor.receiveAll_bank]
  exact run_bind_of (run_send ..) (run_send ..)

theorem run_setOffset (offset : Nat) :
    run (setOffset offset) m
      = ⟨(), m.pointAt (inBank (m.pointer / Monitor.bankSize) offset), [], offsetFrame offset⟩ := by
  rw [inBank, ← Monitor.receiveAll_offset]
  exact run_bind_of (run_send ..) (run_send ..)

/-- All 24 bits of an address count, and no others. -/
theorem run_setAddress (address : Nat) :
    run (setAddress address) m = ⟨(), m.pointAt address, [], addressFrame address⟩ := by
  have h := run_bind_of (f := fun _ => setOffset address) (run_selectBank m (address / bankSize))
    (run_setOffset _ address)
  have hp : inBank (address / bankSize * Monitor.bankSize % Monitor.space / Monitor.bankSize)
      address % Monitor.space = address % Monitor.space := by
    simp only [inBank, bankSize, Monitor.bankSize, Monitor.space]
    omega
  rw [Monitor.pointAt_pointAt, Monitor.pointAt_pointer, Monitor.pointAt_congr m hp] at h
  exact h

theorem run_storeByte (v : UInt8) :
    run (storeByte v) m
      = ⟨(), (m.store m.pointer v).pointAt (m.advance.next m.pointer), [], storeFrame v⟩ := by
  rw [← Monitor.receiveAll_store]
  exact run_bind_of (run_send ..) (run_send ..)

/-- A byte stored at an offset of the bank that the pointer is in. -/
theorem run_sendCommand (offset : Nat) (v : UInt8) :
    run (sendCommand offset v) m
      = ⟨(), (m.store (inBank (m.pointer / Monitor.bankSize) offset) v).pointAt
          (m.advance.next (inBank (m.pointer / Monitor.bankSize) offset)), [],
        offsetFrame offset ++ storeFrame v⟩ := by
  have h := run_bind_of (f := fun _ => storeByte v) (run_setOffset m offset) (run_storeByte _ v)
  have hb : m.pointer / Monitor.bankSize < 0x100 := Nat.div_lt_of_lt_mul m.pointer_lt
  rw [Monitor.pointAt_pointer, Nat.mod_eq_of_lt (Monitor.inBank_lt hb offset),
    Monitor.store_pointAt, Monitor.pointAt_pointAt, Monitor.pointAt_advance] at h
  exact h

/-- A byte fetched is the byte at the pointer, provided that no other reply is waiting. -/
theorem run_fetchByte (h : m.replies = []) :
    run fetchByte m
      = ⟨m.load m.pointer, m.pointAt (m.advance.next m.pointer), [], Utf8.encode ['@']⟩ := by
  -- the answer is all that waits, so it is what the reply takes
  have hreply := Monitor.readReply_digits
    ({ m with replies := m.replies ++ (Hex.digits (m.load m.pointer).toNat 2).map Bytes.ofChar
      }.pointAt (m.advance.next m.pointer)) (m.load m.pointer) (by rw [h]; rfl)
  rw [← Monitor.receiveAll_fetch] at hreply
  have htaken : run reply (m.receiveAll (Utf8.encode ['@']))
      = ⟨m.load m.pointer, m.pointAt (m.advance.next m.pointer), [], []⟩ := by
    rw [run_reply, Intent.run, hreply]
    dsimp only
    rw [Monitor.receiveAll_fetch]
    simp only [Monitor.pointAt, h]
    rfl
  exact run_bind_of (run_send ..) htaken

theorem run_halt :
    run halt m = ⟨(), m.halted.pointAt m.pointer, [], Utf8.encode [']', 'R']⟩ := by
  rw [← Monitor.receiveAll_halt]
  exact run_send ..

end Debugger.Procedure

end BoardConsole
