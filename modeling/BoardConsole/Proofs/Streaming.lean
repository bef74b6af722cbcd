import BoardConsole.Proofs.Arguments
import BoardConsole.Proofs.BusAccesses

/-!
# Memory on a running pointer

Writing bytes to memory and showing it point the target once for each address that is given, and
rely on the pointer to go on by itself for all that comes after it.  So where a byte is written and
which one is shown is for the board to say.

- `Advance.ahead`: where the pointer comes to by itself, and `Advance.ahead_eq_iff`, **when it is at
  the address that many places on**.
- `Procedure.run_storeBytes`, `Procedure.accesses_storeBytes`: bytes stored on a running pointer.
- `Procedure.run_fetchBytes`, `run_dump`: bytes and rows shown from a running pointer.
- `run_write`, `run_read`: **the two commands on any board**.
-/

namespace BoardConsole

/-! ## Where the pointer comes to -/

namespace Monitor

namespace Advance

/-- The address that the pointer comes to by itself, some places after an address. -/
def ahead (adv : Advance) (address count : Nat) : Nat :=
  match adv with
  | .linear => (address + count) % space
  | .banked => inBank (address % space / bankSize) (address + count)

variable (adv : Advance) (a : Nat)

theorem ahead_zero : adv.ahead a 0 = a % space := by
  cases adv with
  | linear => rfl
  | banked =>
    simp only [ahead, inBank, bankSize, space]
    omega

theorem next_ahead (n : Nat) : adv.next (adv.ahead a n) = adv.ahead a (n + 1) := by
  cases adv with
  | linear =>
    simp only [ahead, next, space]
    omega
  | banked =>
    simp only [ahead, next, inBank, bankSize, space]
    omega

theorem next_eq_ahead : adv.next (a % space) = adv.ahead a 1 := by
  rw [← ahead_zero, next_ahead]

theorem ahead_ahead (m n : Nat) : adv.ahead (adv.ahead a m) n = adv.ahead a (m + n) := by
  cases adv with
  | linear =>
    simp only [ahead, space]
    omega
  | banked =>
    simp only [ahead, inBank, bankSize, space]
    omega

/-- **A pointer that goes around in its bank is where it should be for as long as the bank
lasts**, and no longer. -/
theorem ahead_eq_iff {a : Nat} (ha : a < space) (n : Nat) :
    (∀ i < n, Advance.banked.ahead a i = (a + i) % space) ↔ a % bankSize + n ≤ bankSize := by
  have hplace : ∀ i ≤ bankSize, Advance.banked.ahead a i = (a + i) % space ↔
      a % bankSize + i < bankSize := by
    intro i hi
    simp only [ahead, inBank, bankSize, space] at *
    omega
  have hoffset : a % bankSize < bankSize := Nat.mod_lt _ (by decide)
  constructor
  · intro h
    -- the first place of the next bank is the first that is missed
    by_contra hlong
    have hmissed := (hplace (bankSize - a % bankSize) (by omega)).mp (h _ (by omega))
    omega
  · intro h i hi
    exact (hplace i (by omega)).mpr (by omega)

/-- Bytes with the addresses that a running pointer comes to. -/
def cells (bs : Bytes) : List (Nat × UInt8) := bs.mapIdx fun i b => (adv.ahead a i, b)

theorem cells_cons (b : UInt8) (bs : Bytes) :
    adv.cells a (b :: bs) = (a % space, b) :: adv.cells (adv.ahead a 1) bs := by
  simp only [cells, List.mapIdx_cons, ahead_zero, ahead_ahead, Nat.add_comm 1]

/-- The bytes stored on the bus, one by one. -/
theorem map_ofCycle_cells (bs : Bytes) :
    (adv.cells a bs).map BusAccess.ofCycle = bs.mapIdx fun i b => .store (adv.ahead a i) b := by
  apply List.ext_getElem
  · simp only [cells, List.length_map, List.length_mapIdx]
  · intro i _ _
    simp only [cells, List.getElem_map, List.getElem_mapIdx, BusAccess.ofCycle]

end Advance

/-- The pointer is where it was put until it goes on. -/
theorem pointAt_ahead_zero (m : Monitor) (adv : Advance) (a : Nat) :
    m.pointAt (adv.ahead a 0) = m.pointAt a :=
  m.pointAt_congr (by rw [Advance.ahead_zero, Nat.mod_mod])

end Monitor

namespace Debugger

namespace Procedure

open Monitor (space)

/-! ## Bytes stored -/

/-- A byte stored where the pointer is, and the pointer at the next place. -/
theorem run_storeByte_pointAt (m : Monitor) (a : Nat) (v : UInt8) :
    run (storeByte v) (m.pointAt a)
      = ⟨(), (m.store (a % space) v).pointAt (m.advance.ahead a 1), [], storeFrame v⟩ := by
  rw [run_storeByte, Monitor.pointAt_pointer, Monitor.store_pointAt, Monitor.pointAt_pointAt,
    Monitor.pointAt_advance, Monitor.Advance.next_eq_ahead]

/-- **Bytes are stored where the pointer comes to**, one after another. -/
theorem run_storeBytes (bs : Bytes) (m : Monitor) (a : Nat) :
    ∃ sent, run (storeBytes bs) (m.pointAt a)
      = ⟨(), (m.stores (m.advance.cells a bs)).pointAt (m.advance.ahead a bs.length), [],
        sent⟩ := by
  induction bs generalizing m a with
  | nil =>
    rw [List.length_nil, Monitor.Advance.cells, List.mapIdx_nil, Monitor.stores_nil,
      Monitor.pointAt_ahead_zero]
    exact ⟨[], rfl⟩
  | cons b bs ih =>
    obtain ⟨sent, hrest⟩ := ih (m.store (a % space) b) (m.advance.ahead a 1)
    rw [Monitor.store_advance, Monitor.Advance.ahead_ahead, Nat.add_comm] at hrest
    rw [Monitor.Advance.cells_cons, Monitor.stores_cons, List.length_cons]
    exact ⟨_, run_bind_of (run_storeByte_pointAt m a b) hrest⟩

theorem accesses_storeBytes (bs : Bytes) (m : Monitor) (a : Nat) :
    (storeBytes bs).accesses (m.pointAt a) = (m.advance.cells a bs).map BusAccess.ofCycle := by
  induction bs generalizing m a with
  | nil => rfl
  | cons b bs ih =>
    have hrest := ih (m.store (a % space) b) (m.advance.ahead a 1)
    rw [Monitor.store_advance] at hrest
    rw [storeBytes, accesses_bind_of (run_storeByte_pointAt m a b), Monitor.accesses_storeFrame,
      hrest, Monitor.Advance.cells_cons]
    rfl

end Procedure

/-! ## Bytes shown -/

/-- Rows of memory, the first one at an address, by the byte that is shown at each place. -/
def rows (byteAt : Nat → UInt8) (address count : Nat) : List Entry :=
  (List.range count).map fun r =>
    .line (dumpRow (address + 16 * r) ((List.range 16).map fun i => byteAt (16 * r + i)))

theorem rows_succ (byteAt : Nat → UInt8) (address count : Nat) :
    rows byteAt address (count + 1)
      = .line (dumpRow address ((List.range 16).map byteAt))
        :: rows (fun place => byteAt (16 + place)) (address + 16) count := by
  have hrange : List.range (count + 1) = 0 :: (List.range count).map Nat.succ :=
    List.range_succ_eq_map
  rw [rows, rows, hrange, List.map_cons, List.map_map]
  refine congrArg₂ List.cons ?_ (List.map_congr_left fun r _ => ?_)
  · simp only [Nat.mul_zero, Nat.zero_add, Nat.add_zero]
  · have hplace : ∀ i, 16 * r.succ + i = 16 + (16 * r + i) := fun i => by omega
    have haddress : address + 16 * r.succ = address + 16 + 16 * r := by omega
    simp only [Function.comp_apply, hplace, haddress]

/-- What is told about an argument whose memory is shown: four rows from its address on, by the
byte that is shown so many places after an address, or that it is no address. -/
def readout (byteAt : Nat → Nat → UInt8) (token : String) : List Entry :=
  match numberBelow? 0x1000000 token with
  | none => [.line s!"Bad address: {token}"]
  | some address => rows (byteAt address) address 4

namespace Procedure

variable {m : Monitor} (hreplies : m.replies = [])
include hreplies

/-- **Bytes are fetched from where the pointer comes to**, one after another, if no reply waits. -/
theorem run_fetchBytes (n a : Nat) :
    ∃ sent, run (fetchBytes n) (m.pointAt a)
      = ⟨(List.range n).map fun i => m.load (m.advance.ahead a i),
        m.pointAt (m.advance.ahead a n), [], sent⟩ := by
  induction n generalizing a with
  | zero =>
    rw [Monitor.pointAt_ahead_zero]
    exact ⟨[], rfl⟩
  | succ n ih =>
    have hfirst : run fetchByte (m.pointAt a)
        = ⟨m.load (a % Monitor.space), m.pointAt (m.advance.ahead a 1), [], Utf8.encode ['@']⟩ := by
      rw [run_fetchByte (m.pointAt a) hreplies, Monitor.pointAt_pointer, Monitor.pointAt_load,
        Monitor.pointAt_pointAt, Monitor.pointAt_advance, Monitor.Advance.next_eq_ahead]
    obtain ⟨sent, hrest⟩ := ih (m.advance.ahead a 1)
    simp only [Monitor.Advance.ahead_ahead, Nat.add_comm 1] at hrest
    rw [List.range_succ_eq_map, List.map_cons, List.map_map, Monitor.Advance.ahead_zero]
    exact ⟨_, run_bind_of hfirst (run_bind_of hrest (run_pure ..))⟩

/-- **Rows show what the pointer comes to**, one row after another. -/
theorem run_dump (n label a : Nat) :
    ∃ sent, run (dump label n) (m.pointAt a)
      = ⟨(), m.pointAt (m.advance.ahead a (16 * n)),
        rows (fun place => m.load (m.advance.ahead a place)) label n, sent⟩ := by
  induction n generalizing label a with
  | zero =>
    rw [Nat.mul_zero, Monitor.pointAt_ahead_zero]
    exact ⟨[], rfl⟩
  | succ n ih =>
    obtain ⟨sent₁, hrow⟩ := run_fetchBytes hreplies rowBytes a
    obtain ⟨sent₂, hrest⟩ := ih (label + rowBytes) (m.advance.ahead a rowBytes)
    simp only [Monitor.Advance.ahead_ahead] at hrest
    have hend : rowBytes + 16 * n = 16 * (n + 1) := (Nat.add_comm ..).trans (Nat.mul_succ 16 n).symm
    rw [hend] at hrest
    rw [rows_succ]
    exact ⟨_, run_bind_of hrow (run_bind_of (run_say ..) hrest)⟩

/-- What is told about arguments is what the pointer comes to from each of their addresses. -/
theorem run_readMemory (tokens : List String) :
    ∃ m' sent, run (readMemory (tokens.map Number.address)) m
      = ⟨(), m', tokens.flatMap (readout fun a place => m.load (m.advance.ahead a place)), sent⟩ ∧
      m'.SameMemory m ∧ m'.replies = [] := by
  induction tokens generalizing m with
  | nil => exact ⟨m, [], rfl, .refl m, hreplies⟩
  | cons token rest ih =>
    rw [List.map_cons, List.flatMap_cons, Number.address_eq, readout]
    cases numberBelow? 0x1000000 token with
    | none =>
      obtain ⟨m', sent, hrest, hsame, hempty⟩ := ih hreplies
      exact ⟨m', _, run_bind_of (run_say ..) hrest, hsame, hempty⟩
    | some a =>
      obtain ⟨sent₁, hrows⟩ := run_dump hreplies dumpRows a a
      obtain ⟨m', sent₂, hrest, hsame, hempty⟩ :=
        ih (m := m.pointAt (m.advance.ahead a (16 * dumpRows))) hreplies
      have hrun : run (setAddress a >>= fun _ => dump a dumpRows >>= fun _ =>
          readMemory (rest.map Number.address)) m = _ :=
        run_bind_of (run_setAddress m a) (run_bind_of hrows hrest)
      exact ⟨m', _, hrun, hsame.trans ⟨rfl, rfl, rfl, rfl⟩, hempty⟩

end Procedure

/-! ## The two commands -/

open Procedure

/-- What is told when bytes have been written: the argument that ended them, if one did, and their
number. -/
def writeReport (count : Nat) (rejected : Option String) : List Entry :=
  (rejected.toList.map fun token => .line s!"Bad data: {token}")
    ++ [.line s!"Wrote {count} byte{plural count}!"]

/-- **Bytes are written where the pointer comes to**, whatever kind of board it is: in its memory,
and on its bus. -/
theorem run_write (loader : Loader) (m : Monitor) (a : Nat) (data : Bytes)
    (rejected : Option String) :
    ∃ sent, run ((Command.write (some ⟨.valid a, data, rejected⟩)).procedure loader) m
      = ⟨(), (m.stores (m.advance.cells a data)).pointAt (m.advance.ahead a data.length),
        writeReport data.length rejected, sent⟩ ∧
      m.accesses sent = (m.advance.cells a data).map BusAccess.ofCycle := by
  obtain ⟨sent, hstored⟩ := run_storeBytes data m a
  have haccesses : m.accesses (addressFrame a ++ sent)
      = (m.advance.cells a data).map BusAccess.ofCycle := by
    have hpointed := run_core (setAddress a) m
    have hstores := accesses_storeBytes data m a
    rw [run_setAddress] at hpointed
    rw [accesses_of_run hstored] at hstores
    rw [Monitor.accesses_append, Monitor.accesses_addressFrame, List.nil_append, ← hstores]
    exact Monitor.accesses_congr hpointed.symm _
  refine ⟨addressFrame a ++ sent, ?_, haccesses⟩
  have hwritten : run (writeMemory (some ⟨.valid a, data, rejected⟩)) m
      = ⟨data.length, (m.stores (m.advance.cells a data)).pointAt (m.advance.ahead a data.length),
        rejected.toList.map fun token => .line s!"Bad data: {token}", addressFrame a ++ sent⟩ := by
    rw [← List.append_nil (addressFrame a ++ sent), List.append_assoc]
    cases rejected with
    | none => exact run_bind_of (run_setAddress m a) (run_bind_of hstored (run_pure ..))
    | some token =>
      exact run_bind_of (run_setAddress m a) (run_bind_of hstored
        (run_bind_of (run_say ..) (run_pure ..)))
  rw [← List.append_nil (addressFrame a ++ sent)]
  exact run_bind_of hwritten (run_say ..)

/-- **What is shown is what the pointer comes to**, whatever kind of board it is, and only the
pointer has moved. -/
theorem run_read (loader : Loader) {m : Monitor} (hreplies : m.replies = []) (args : List String) :
    ∃ m' sent,
      run ((Command.read ((args.filter (· ≠ "")).map Number.address)).procedure loader) m
        = ⟨(), m', (args.filter (· ≠ "")).flatMap (readout fun a place =>
          m.load (m.advance.ahead a place)), sent⟩ ∧
      m'.SameMemory m ∧ m'.replies = [] :=
  run_readMemory hreplies (args.filter (· ≠ ""))

end Debugger

end BoardConsole
