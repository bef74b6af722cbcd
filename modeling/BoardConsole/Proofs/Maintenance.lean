import BoardConsole.Proofs.Cycles
import BoardConsole.Proofs.ProgramImage

/-!
# Maintenance commands on the bus

Erasing a sector, identifying the chip and mapping the RAM store a fixed sequence of values, and
the replies that wait on the link have no part in it.

- `Procedure.run_eraseSector`, `run_chipIdentity`, `mapPairs_puts`: the commands as stores.
- `Monitor.stores_sectorCycles`: **a sector erase is one operation**, if the chip answers to the
  address; otherwise the chip is left in the middle of the command.
- `Monitor.stores_entry`, `stores_exit`: the identity shown and hidden again.
-/

namespace BoardConsole

namespace Monitor

/-- The board halted. -/
def stopped (m : Monitor) : Monitor :=
  { m with controls := { m.controls with stop := m.controls.stop + 1 } }

theorem receiveAll_stop (m : Monitor) :
    m.receiveAll (Utf8.encode [']']) = m.stopped.pointAt m.pointer := by
  have h : m.stopped.pointAt m.pointer = { m.clearDigits with controls := m.stopped.controls } := by
    simp only [clearDigits, stopped, pointAt, Nat.mod_eq_of_lt m.pointer_lt]
  rw [h]
  rfl

/-- Before the last offset of a bank the pointer goes on to the next offset. -/
theorem Advance.next_eq_inBank (adv : Advance) {bank offset : Nat} (hb : bank < 0x100)
    (ho : (offset + 1) % bankSize ≠ 0) :
    adv.next (inBank bank offset) = inBank bank (offset + 1) := by
  have hlt := inBank_lt hb offset
  have hne : (inBank bank offset + 1) % bankSize ≠ 0 := by
    simp only [inBank, bankSize] at *
    omega
  have hnext := adv.next_mod hne
  rw [Nat.mod_eq_of_lt hlt] at hnext
  rw [hnext]
  simp only [inBank, bankSize, space] at *
  omega

end Monitor

namespace Debugger

/-! ## Replies are no part of memory -/

namespace Session

/-- Answers that wait on two boards are taken in the same way, and nothing else is. -/
theorem readPair_alike {a b : Monitor} (h : a.replies = b.replies) :
    ∃ result rest, readPair a = (result, { a with replies := rest }) ∧
      readPair b = (result, { b with replies := rest }) := by
  obtain ⟨ram, remap, chip, pointer, pointer_lt, digits, replies, controls, advance⟩ := a
  obtain ⟨ram', remap', chip', pointer', pointer_lt', digits', _, controls', advance'⟩ := b
  subst h
  -- a reply is complete, or cut off after its first byte, or not there at all
  rcases replies with _ | ⟨first, _ | ⟨second, rest⟩⟩
  · exact ⟨_, [], rfl, rfl⟩
  · exact ⟨_, [], rfl, rfl⟩
  · exact ⟨_, rest, rfl, rfl⟩

theorem readReply_alike {a b : Monitor} (h : a.replies = b.replies) :
    ∃ result rest, readReply a = (result, { a with replies := rest }) ∧
      readReply b = (result, { b with replies := rest }) := by
  obtain ⟨pair, rest, ha, hb⟩ := readPair_alike h
  rw [readReply, readReply, ha, hb]
  cases pair with
  | error fault => exact ⟨_, rest, rfl, rfl⟩
  | ok pair =>
    dsimp only
    cases Hex.decodeByte pair with
    | error reply => exact ⟨_, rest, rfl, rfl⟩
    | ok v => exact ⟨_, rest, rfl, rfl⟩

theorem readReply_board (m : Monitor) : ∃ rest, (readReply m).2 = { m with replies := rest } := by
  obtain ⟨result, rest, h, -⟩ := readReply_alike (a := m) rfl
  exact ⟨rest, congrArg Prod.snd h⟩

end Session

namespace Procedure

open Monitor (inBank space)

/-- A byte fetched moves the pointer on and uses some replies up, whichever they are. -/
theorem run_fetchByte_board (m : Monitor) :
    ∃ v rest told, run fetchByte m
      = ⟨v, ({ m with replies := rest } : Monitor).pointAt (m.advance.next m.pointer), told,
        Utf8.encode ['@']⟩ := by
  obtain ⟨rest, hrest⟩ := Session.readReply_board (m.receiveAll (Utf8.encode ['@']))
  have hboard : (Session.readReply (m.receiveAll (Utf8.encode ['@']))).2
      = ({ m with replies := rest } : Monitor).pointAt (m.advance.next m.pointer) := by
    rw [hrest, Monitor.receiveAll_fetch]
    rfl
  have hreply : ∃ v told, run reply (m.receiveAll (Utf8.encode ['@']))
      = ⟨v, ({ m with replies := rest } : Monitor).pointAt (m.advance.next m.pointer), told,
        []⟩ := by
    rw [run_reply, Intent.run, ← hboard]
    rcases Session.readReply (m.receiveAll (Utf8.encode ['@'])) with ⟨fault | b, m'⟩
    · exact ⟨_, _, rfl⟩
    · exact ⟨_, _, rfl⟩
  obtain ⟨v, told, hrun⟩ := hreply
  exact ⟨v, rest, told, run_bind_of (run_send ..) hrun⟩

theorem run_fetchByte_pointAt (m : Monitor) (a : Nat) :
    ∃ v rest told, run fetchByte (m.pointAt a)
      = ⟨v, ({ m with replies := rest } : Monitor).pointAt (m.advance.next (a % space)), told,
        Utf8.encode ['@']⟩ := run_fetchByte_board (m.pointAt a)

/-- Before the end of a bank the pointer stays in it. -/
theorem run_fetchByte_inBank {bank offset : Nat} (hb : bank < 0x100)
    (ho : (offset + 1) % Monitor.bankSize ≠ 0) (m : Monitor) :
    ∃ v rest told, run fetchByte (m.pointAt (inBank bank offset))
      = ⟨v, ({ m with replies := rest } : Monitor).pointAt (inBank bank (offset + 1)), told,
        Utf8.encode ['@']⟩ := by
  obtain ⟨v, rest, told, hrun⟩ := run_fetchByte_pointAt m (inBank bank offset)
  rw [Nat.mod_eq_of_lt (Monitor.inBank_lt hb offset), m.advance.next_eq_inBank hb ho] at hrun
  exact ⟨v, rest, told, hrun⟩

/-! ## Sectors -/

/-- The bank that a sector erase opens its command in. -/
def sectorBank (address : Nat) : Nat := address / bankSize / 0x10 % 0x10 * 0x10

/-- The stores that erase the sector around an address. -/
def sectorCycles (address : Nat) : List (Nat × UInt8) :=
  eraseCycles (sectorBank address) ++ [(address % space, 0x30)]

theorem run_eraseSector (address : Nat) (m : Monitor) :
    ∃ c sent, run (eraseSector address) m
      = ⟨(), (m.halted.stores (sectorCycles address)).pointAt c, [], sent⟩ := by
  have hb : sectorBank address < 0x100 := by
    unfold sectorBank
    omega
  have hbank : sectorBank address * Monitor.bankSize % space / Monitor.bankSize
      = sectorBank address := by
    simp only [Monitor.bankSize, space] at *
    omega
  have hown : address / bankSize * Monitor.bankSize % space / Monitor.bankSize
      = address / bankSize % 0x100 := by
    simp only [bankSize, Monitor.bankSize, space]
    omega
  have hplace : inBank (address / bankSize % 0x100) (address % bankSize) = address % space := by
    simp only [inBank, bankSize, Monitor.bankSize, space]
    omega
  have h₁ := run_selectBank (m.halted.pointAt m.pointer) (sectorBank address)
  obtain ⟨c₂, sent₂, h₂, -⟩ := eraseSetup_puts hb m.halted _ hbank
  -- the last cycle goes to the bank of the sector, which need not be the one the command is
  -- opened in
  have h₃ := run_selectBank ((m.halted.stores (eraseCycles (sectorBank address))).pointAt c₂)
    (address / bankSize)
  have h₄ := run_sendCommand_bank (m.halted.stores (eraseCycles (sectorBank address))) hown
    (address % bankSize) 0x30
  rw [Monitor.pointAt_pointAt] at h₁ h₃
  rw [hplace] at h₄
  rw [sectorCycles, Monitor.stores_append, Monitor.stores_cons, Monitor.stores_nil]
  exact ⟨_, _, run_bind_of (run_halt m) (run_bind_of h₁ (run_bind_of h₂ (run_bind_of h₃
    (run_bind_of h₄ (run_settle ..)))))⟩

/-! ## Identity -/

/-- The stores that make the chip show its identity. -/
def entryCycles (bank : Nat) : List (Nat × UInt8) :=
  unlockCycles bank ++ [(inBank bank 0x5555, 0x90)]

/-- The stores that make the chip show its contents again. -/
def exitCycles (bank : Nat) : List (Nat × UInt8) :=
  unlockCycles bank ++ [(inBank bank 0x5555, 0xF0)]

/-- **Identifying the chip** shows its identity and hides it again, with two bytes fetched in
between. -/
theorem run_chipIdentity_of {bank : Nat} (hb : bank < 0x100) {m shown₁ shown₂ : Monitor}
    {manufacturer device : UInt8} {told₁ told₂ : List Entry} {sent₁ sent₂ : Bytes}
    (h₁ : run fetchByte ((m.stopped.stores (entryCycles bank)).pointAt (inBank bank 0))
      = ⟨manufacturer, shown₁.pointAt (inBank bank 1), told₁, sent₁⟩)
    (h₂ : run fetchByte (shown₁.pointAt (inBank bank 1))
      = ⟨device, shown₂.pointAt (inBank bank 2), told₂, sent₂⟩) :
    ∃ c sent, run (chipIdentity bank) m
      = ⟨(manufacturer, device), (shown₂.stores (exitCycles bank)).pointAt c, told₁ ++ told₂,
        sent⟩ := by
  have hbank : bank * Monitor.bankSize % space / Monitor.bankSize = bank := by
    simp only [Monitor.bankSize, space]
    omega
  have hstop : run (send [']']) m
      = ⟨(), m.stopped.pointAt m.pointer, [], Utf8.encode [']']⟩ := by
    rw [run_send, Monitor.receiveAll_stop]
  have hselect := run_selectBank (m.stopped.pointAt m.pointer) bank
  rw [Monitor.pointAt_pointAt] at hselect
  obtain ⟨c₃, sent₃, h₃, hc₃⟩ := unlock_puts hb m.stopped _ hbank
  obtain ⟨c₄, sent₄, h₄, hc₄⟩ := sendCommand_puts hb
    (show (0x5555 + 1) % Monitor.bankSize ≠ 0 by decide) 0x90
    (m.stopped.stores (unlockCycles bank)) c₃ hc₃
  rw [← Monitor.stores_append] at h₄
  -- the pointer stays in the bank while the two bytes are fetched
  have h₅ := run_setOffset ((m.stopped.stores (entryCycles bank)).pointAt c₄) 0
  rw [Monitor.pointAt_pointer, hc₄, Monitor.pointAt_pointAt] at h₅
  have hc₂ : inBank bank 2 % space / Monitor.bankSize = bank := by
    simp only [inBank, Monitor.bankSize, space]
    omega
  obtain ⟨c₆, sent₆, h₆, hc₆⟩ := unlock_puts hb shown₂ _ hc₂
  obtain ⟨c₇, sent₇, h₇, -⟩ := sendCommand_puts hb
    (show (0x5555 + 1) % Monitor.bankSize ≠ 0 by decide) 0xF0
    (shown₂.stores (unlockCycles bank)) c₆ hc₆
  rw [← Monitor.stores_append] at h₇
  have hrun : run (chipIdentity bank) m = _ :=
    run_bind_of hstop (run_bind_of hselect (run_bind_of h₃ (run_bind_of h₄ (run_bind_of h₅
      (run_bind_of h₁ (run_bind_of h₂ (run_bind_of h₆ (run_bind_of h₇ (run_pure ..)))))))))
  rw [← List.append_nil told₂]
  exact ⟨c₇, _, hrun⟩

/-- Whichever replies come for the two bytes, the identity is shown and hidden again. -/
theorem run_chipIdentity {bank : Nat} (hb : bank < 0x100) (m : Monitor) :
    ∃ v rest c told sent, run (chipIdentity bank) m
      = ⟨v, (({ m.stopped.stores (entryCycles bank) with replies := rest } : Monitor).stores
          (exitCycles bank)).pointAt c, told, sent⟩ := by
  obtain ⟨manufacturer, rest₁, told₁, h₁⟩ :=
    run_fetchByte_inBank hb (show (0 + 1) % Monitor.bankSize ≠ 0 by decide)
      (m.stopped.stores (entryCycles bank))
  obtain ⟨device, rest₂, told₂, h₂⟩ :=
    run_fetchByte_inBank hb (show (1 + 1) % Monitor.bankSize ≠ 0 by decide)
      { m.stopped.stores (entryCycles bank) with replies := rest₁ }
  obtain ⟨c, sent, hrun⟩ := run_chipIdentity_of hb h₁ h₂
  exact ⟨(manufacturer, device), rest₂, c, _, sent, hrun⟩

/-! ## The registers of the memory mapper -/

/-- The stores that map the RAM one to one, from a pair of registers on. -/
def mapCycles : Nat → Nat → List (Nat × UInt8)
  | _, 0 => []
  | i, n + 1 =>
    [(inBank mapperBank (2 * i), UInt8.ofNat (16 * i))] ++
      ([(inBank mapperBank (2 * i + 1), 0x80)] ++ mapCycles (i + 1) n)

theorem mapPairs_puts (i n : Nat) (h : i + n ≤ 16) :
    Puts mapperBank (mapPairs i n) (mapCycles i n) := by
  have hb : mapperBank < 0x100 := by decide
  induction n generalizing i with
  | zero => exact fun m c hc => ⟨c, [], rfl, hc⟩
  | succ n ih =>
    have hfirst : (2 * i + 1) % Monitor.bankSize ≠ 0 := by
      simp only [Monitor.bankSize]
      omega
    have hsecond : (2 * i + 1 + 1) % Monitor.bankSize ≠ 0 := by
      simp only [Monitor.bankSize]
      omega
    exact (sendCommand_puts hb hfirst _).andThen
      ((sendCommand_puts hb hsecond _).andThen (ih (i + 1) (by omega)))

end Procedure

end Debugger

/-! ## What the chip makes of them -/

namespace Monitor

open Debugger (flashBank)
open Debugger.Procedure

namespace Chip

/-- The sector around an offset erased. -/
def sectorWiped (c : Chip) (o : Nat) : Chip :=
  { c with
    data := c.data.mapIdx fun i b =>
      if o - o % c.part.sector ≤ i ∧ i < o - o % c.part.sector + c.part.sector then erased else b
    size_data := Array.size_mapIdx.trans c.size_data
    state := .read }

/-- The offsets of a sector. -/
theorem sector_iff {n : Nat} (hn : 0 < n) (i o : Nat) :
    (o - o % n ≤ i ∧ i < o - o % n + n) ↔ i / n = o / n := by
  have hstart : o - o % n = o / n * n := by
    have := Nat.div_add_mod' o n
    omega
  rw [hstart, Nat.div_eq_iff hn]
  omega

/-- The bytes of a sector are erased and the others kept. -/
theorem data_sectorWiped {c : Chip} (hsector : 0 < c.part.sector) (o i : Nat) :
    (c.sectorWiped o).data[i]?
      = c.data[i]?.map fun b => if i / c.part.sector = o / c.part.sector then erased else b := by
  rw [sectorWiped, Array.getElem?_mapIdx]
  simp only [sector_iff hsector]

theorem write_sector {c : Chip} (hstate : c.state = .eraseUnlocked2) (o : Nat) :
    c.write o 0x30 = c.sectorWiped o := by
  have hcommand : c.state.decode o 0x30 = .eraseSector := by
    rw [hstate]
    simp only [Decoder.decode]
    rw [if_neg fun h => absurd h.2 (by decide), if_pos trivial]
  simp only [write, hcommand]
  rfl

variable {c : Chip} {o₁ o₂ : Nat} (h₁ : o₁ % 0x8000 = unlockFirst) (h₂ : o₂ % 0x8000 = unlockSecond)
include h₁ h₂

theorem writes_entry (hstate : c.state = .read) :
    c.writes [(o₁, 0xAA), (o₂, 0x55), (o₁, 0x90)]
      = { c with state := .read, showsIdentity := true } := by
  have hcommand : Decoder.unlocked2.decode o₁ 0x90 = .enterIdentity := by
    simp only [Decoder.decode, h₁, true_and]
    rfl
  show (c.writes [(o₁, 0xAA), (o₂, 0x55)]).write o₁ 0x90 = _
  rw [writes_unlock h₁ h₂ hstate]
  simp only [write, hcommand]

theorem writes_exit (hstate : c.state = .read) :
    c.writes [(o₁, 0xAA), (o₂, 0x55), (o₁, 0xF0)]
      = { c with state := .read, showsIdentity := false } := by
  have hcommand : Decoder.unlocked2.decode o₁ 0xF0 = .leaveIdentity := by
    simp only [Decoder.decode, h₁, true_and]
    rfl
  show (c.writes [(o₁, 0xAA), (o₂, 0x55)]).write o₁ 0xF0 = _
  rw [writes_unlock h₁ h₂ hstate]
  simp only [write, hcommand]

/-- The sequence that erases everything is lost on a chip that waits for the end of an erase: its
first value ends that one, and only its second half is followed. -/
theorem writes_wipe_lost (hstate : c.state = .eraseUnlocked2) :
    c.writes [(o₁, 0xAA), (o₂, 0x55), (o₁, 0x80), (o₁, 0xAA), (o₂, 0x55), (o₁, 0x10)]
      = { c with state := .read } := by
  have hfirst : c.write o₁ 0xAA = { c with state := .read } := by
    have hdecode : Decoder.eraseUnlocked2.decode o₁ 0xAA = .ignore := by
      simp only [Decoder.decode, h₁, true_and]
      rfl
    simp only [write, hstate, hdecode]
  have hsecond : ({ c with state := .read } : Chip).write o₂ 0x55 = { c with state := .read } := by
    have hdecode : Decoder.read.decode o₂ 0x55 = .ignore := by
      simp only [Decoder.decode, h₂]
      rfl
    simp only [write, hdecode]
  have hthird : ({ c with state := .read } : Chip).write o₁ 0x80 = { c with state := .read } := by
    have hdecode : Decoder.read.decode o₁ 0x80 = .ignore := by
      simp only [Decoder.decode, h₁, true_and]
      rfl
    simp only [write, hdecode]
  have hlast : Decoder.unlocked2.decode o₁ 0x10 = .ignore := by
    simp only [Decoder.decode, h₁, true_and]
    rfl
  show ((((c.write o₁ 0xAA).write o₂ 0x55).write o₁ 0x80).writes [(o₁, 0xAA), (o₂, 0x55)]).write
    o₁ 0x10 = _
  rw [hfirst, hsecond, hthird, writes_unlock h₁ h₂ rfl]
  simp only [write, hlast]

end Chip

/-! ### In the chip's first bank -/

section

variable {m : Monitor} (hpart : m.chip.part.FillsBanks) (hstate : m.chip.state = .read)
include hpart hstate

theorem stores_entry :
    m.stores (entryCycles flashBank)
      = { m with chip := { m.chip with state := .read, showsIdentity := true } } := by
  obtain ⟨o₁, ho₁, h₁⟩ := hpart.offset?_inBank hpart.offset?_first 0x5555
  obtain ⟨o₂, ho₂, h₂⟩ := hpart.offset?_inBank hpart.offset?_first 0x2AAA
  rw [← Chip.writes_entry h₁ h₂ hstate]
  exact stores_of_chip (.cons ⟨ho₁, rfl⟩ (.cons ⟨ho₂, rfl⟩ (.cons ⟨ho₁, rfl⟩ .nil)))

theorem stores_exit :
    m.stores (exitCycles flashBank)
      = { m with chip := { m.chip with state := .read, showsIdentity := false } } := by
  obtain ⟨o₁, ho₁, h₁⟩ := hpart.offset?_inBank hpart.offset?_first 0x5555
  obtain ⟨o₂, ho₂, h₂⟩ := hpart.offset?_inBank hpart.offset?_first 0x2AAA
  rw [← Chip.writes_exit h₁ h₂ hstate]
  exact stores_of_chip (.cons ⟨ho₁, rfl⟩ (.cons ⟨ho₂, rfl⟩ (.cons ⟨ho₁, rfl⟩ .nil)))

theorem stores_eraseCycles :
    m.stores (eraseCycles flashBank)
      = { m with chip := { m.chip with state := .eraseUnlocked2 } } := by
  obtain ⟨o₁, ho₁, h₁⟩ := hpart.offset?_inBank hpart.offset?_first 0x5555
  obtain ⟨o₂, ho₂, h₂⟩ := hpart.offset?_inBank hpart.offset?_first 0x2AAA
  rw [← Chip.writes_eraseSetup h₁ h₂ hstate]
  exact stores_of_chip (.cons ⟨ho₁, rfl⟩ (.cons ⟨ho₂, rfl⟩ (.cons ⟨ho₁, rfl⟩ (.cons ⟨ho₁, rfl⟩
    (.cons ⟨ho₂, rfl⟩ .nil)))))

omit hstate in
theorem stores_wipeCycles_lost (hstate : m.chip.state = .eraseUnlocked2) :
    m.stores (wipeCycles flashBank) = { m with chip := { m.chip with state := .read } } := by
  obtain ⟨o₁, ho₁, h₁⟩ := hpart.offset?_inBank hpart.offset?_first 0x5555
  obtain ⟨o₂, ho₂, h₂⟩ := hpart.offset?_inBank hpart.offset?_first 0x2AAA
  rw [← Chip.writes_wipe_lost h₁ h₂ hstate]
  exact stores_of_chip (.cons ⟨ho₁, rfl⟩ (.cons ⟨ho₂, rfl⟩ (.cons ⟨ho₁, rfl⟩ (.cons ⟨ho₁, rfl⟩
    (.cons ⟨ho₂, rfl⟩ (.cons ⟨ho₁, rfl⟩ .nil))))))

end

/-! ### Sectors inside and outside the chip -/

namespace Part

/-- The address is in the window of the flash commands, but beyond the end of the chip. -/
def Overshot (p : Part) (address : Nat) : Prop :=
  p.base + p.size ≤ address % space ∧ address % space < 0x300000

instance (p : Part) (address : Nat) : Decidable (p.Overshot address) :=
  inferInstanceAs (Decidable (_ ∧ _))

theorem offset?_eq_none_iff {p : Part} {a : Nat} :
    p.offset? a = none ↔ a < p.base ∨ p.base + p.size ≤ a := by
  unfold offset?
  split
  · rename_i h
    constructor
    · intro hsome
      cases hsome
    · intro hout
      omega
  · rename_i h
    exact iff_of_true rfl (by omega)

/-- With one address of a bank outside the chip they all are. -/
theorem FillsBanks.offset?_inBank_none {p : Part} (h : p.FillsBanks) {a : Nat}
    (ha : p.offset? a = none) (x : Nat) : p.offset? (inBank (a / bankSize) x) = none := by
  obtain ⟨hbase, hpos, hwhole, -⟩ := h
  rw [offset?_eq_none_iff] at *
  simp only [inBank, bankSize] at *
  omega

theorem FillsBanks.sectorBank_eq_iff {p : Part} (h : p.FillsBanks) (address : Nat) :
    sectorBank address = flashBank ↔
      p.Overshot address ∨ ∃ o, p.offset? (address % space) = some o := by
  obtain ⟨hbase, hpos, hwhole, hle⟩ := h
  have hsome : (∃ o, p.offset? (address % space) = some o) ↔
      p.base ≤ address % space ∧ address % space < p.base + p.size := by
    constructor
    · rintro ⟨o, ho⟩
      have := offset?_eq_some_iff.mp ho
      omega
    · rintro ⟨hlow, hhigh⟩
      exact ⟨address % space - p.base, offset?_eq_some_iff.mpr (by omega)⟩
  rw [hsome]
  simp only [Overshot, sectorBank, flashBank, Debugger.Procedure.bankSize, space, hbase] at *
  omega

end Part

section

variable {m : Monitor} (hpart : m.chip.part.FillsBanks) {address : Nat}
include hpart

/-- **A sector erase is one operation** if the chip answers to the address. -/
theorem stores_sectorCycles (hstate : m.chip.state = .read) {o : Nat}
    (ho : m.chip.part.offset? (address % space) = some o) :
    m.stores (sectorCycles address)
      = { m with chip := { m.chip with state := .eraseUnlocked2 }.sectorWiped o } := by
  have hbank := (hpart.sectorBank_eq_iff address).mpr (.inr ⟨o, ho⟩)
  rw [sectorCycles, hbank, stores_append, stores_eraseCycles hpart hstate, ← Chip.write_sector rfl]
  exact store_of_chip (m := { m with chip := { m.chip with state := .eraseUnlocked2 } }) ho 0x30

/-- Beyond the end of the chip the command is opened but never given. -/
theorem stores_sectorCycles_chip_of_overshot (hstate : m.chip.state = .read)
    (h : m.chip.part.Overshot address) :
    (m.stores (sectorCycles address)).chip = { m.chip with state := .eraseUnlocked2 } := by
  have hbank := (hpart.sectorBank_eq_iff address).mpr (.inl h)
  rw [sectorCycles, hbank, stores_append, stores_eraseCycles hpart hstate]
  exact store_chip (m := { m with chip := { m.chip with state := .eraseUnlocked2 } })
    (Part.offset?_eq_none_iff.mpr (.inr h.1)) 0x30

/-- Outside the window the chip notices nothing. -/
theorem stores_sectorCycles_chip_of_outside (h : sectorBank address ≠ flashBank) :
    (m.stores (sectorCycles address)).chip = m.chip := by
  have hplace : m.chip.part.offset? (address % space) = none := by
    cases ho : m.chip.part.offset? (address % space) with
    | none => rfl
    | some o => exact absurd ((hpart.sectorBank_eq_iff address).mpr (.inr ⟨o, ho⟩)) h
  have hbank : ∀ x, m.chip.part.offset? (inBank (sectorBank address) x) = none := by
    intro x
    obtain ⟨hbase, -, -, hle⟩ := hpart
    rw [Part.offset?_eq_none_iff]
    simp only [inBank, sectorBank, flashBank, bankSize, Debugger.Procedure.bankSize] at *
    omega
  refine stores_chip _ fun w hw => ?_
  simp only [sectorCycles, eraseCycles, unlockCycles, List.mem_append, List.mem_cons,
    List.not_mem_nil, or_false] at hw
  rcases hw with ((rfl | rfl) | rfl | rfl | rfl) | rfl
  · exact hbank _
  · exact hbank _
  · exact hbank _
  · exact hbank _
  · exact hbank _
  · exact hplace

end

/-- The registers of the memory mapper are outside the chip. -/
theorem stores_mapCycles_chip {m : Monitor} (hpart : m.chip.part.FillsBanks) (i n : Nat) :
    (m.stores (mapCycles i n)).chip = m.chip := by
  have hbank : ∀ x, m.chip.part.offset? (inBank Debugger.mapperBank x) = none := by
    intro x
    obtain ⟨hbase, -, -, -⟩ := hpart
    rw [Part.offset?_eq_none_iff]
    simp only [inBank, Debugger.mapperBank, bankSize]
    omega
  refine stores_chip _ fun w hw => ?_
  induction n generalizing i with
  | zero => cases hw
  | succ n ih =>
    rw [mapCycles, List.mem_append, List.mem_append, List.mem_singleton, List.mem_singleton] at hw
    rcases hw with rfl | rfl | hw
    · exact hbank _
    · exact hbank _
    · exact ih (i + 1) hw

end Monitor

end BoardConsole
