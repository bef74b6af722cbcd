import BoardConsole.Proofs.Maintenance

/-!
# Two boards in lockstep

Boards differ in how the pointer goes on at the end of a bank.  Two boards with the same memory stay
alike under every command that points the target anew before it relies on the pointer, and nobody
who talks to them can tell which is which.

- `Monitor.Both`: two boards with the same memory and answers, and pointers of which both have a
  property.
- `Procedure.Lockstep`: a procedure does the same on two such boards, with the properties of the
  pointers before and after it.
- `Lockstep.bind`: **lockstep composes**, so what a command needs of the pointer is followed
  primitive by primitive.
- `Purpose.transfer_lockstep`: an object file is handled in lockstep.
- `Session.dispatch_lockstep`: **no command on files or on the flash chip relies on the pointer
  going on into the next bank**.
-/

namespace BoardConsole

open ObjectFile (Segment addressSpace)

/-! ## Boards that are alike -/

namespace Monitor

/-- Two boards with the same memory and the same answers waiting. -/
structure Alike (a b : Monitor) : Prop where
  ram : a.ram = b.ram
  remap : a.remap = b.remap
  chip : a.chip = b.chip
  replies : a.replies = b.replies

/-- Two boards that are alike, with pointers of which both have a property. -/
structure Both (P : Nat → Prop) (a b : Monitor) : Prop where
  alike : a.Alike b
  left : P a.pointer
  right : P b.pointer

namespace Alike

variable {a b : Monitor} (h : a.Alike b)
include h

theorem load (x : Nat) : a.load x = b.load x := by
  simp only [Monitor.load, h.ram, h.remap, h.chip]

theorem store (x : Nat) (v : UInt8) : (a.store x v).Alike (b.store x v) := by
  have hreplies : (a.store x v).replies = (b.store x v).replies := by
    rw [store_replies, store_replies, h.replies]
  -- both boards take the address for the same thing
  cases hoffset : a.chip.part.offset? x with
  | some o =>
    have hoffset' := h.chip ▸ hoffset
    rw [store_of_chip hoffset, store_of_chip hoffset']
    exact ⟨h.ram, h.remap, congrArg (·.write o v) h.chip, h.replies⟩
  | none =>
    have hoffset' := h.chip ▸ hoffset
    cases hregister : register? x with
    | some r =>
      rw [store_of_register hoffset hregister, store_of_register hoffset' hregister]
      exact ⟨h.ram, congrArg (fun remap => remap.set r v r.isLt) h.remap, h.chip, h.replies⟩
    | none =>
      rw [store_of_ram hoffset hregister, store_of_ram hoffset' hregister]
      exact ⟨congrArg (·.insert x v) h.ram, h.remap, h.chip, h.replies⟩

theorem pointAt (x y : Nat) : (a.pointAt x).Alike (b.pointAt y) :=
  ⟨h.ram, h.remap, h.chip, h.replies⟩

theorem halted : a.halted.Alike b.halted := ⟨h.ram, h.remap, h.chip, h.replies⟩

theorem stopped : a.stopped.Alike b.stopped := ⟨h.ram, h.remap, h.chip, h.replies⟩

theorem withReplies (rest : Bytes) :
    ({ a with replies := rest } : Monitor).Alike { b with replies := rest } :=
  ⟨h.ram, h.remap, h.chip, rfl⟩

end Alike

/-- Both boards pointed somewhere. -/
theorem Alike.both {a b : Monitor} (h : a.Alike b) {P : Nat → Prop} {x y : Nat}
    (hx : P (x % space)) (hy : P (y % space)) : Both P (a.pointAt x) (b.pointAt y) :=
  ⟨h.pointAt x y, hx, hy⟩

/-! ### Where a pointer is -/

/-- The pointer is anywhere. -/
def Anywhere (_pointer : Nat) : Prop := True

theorem Anywhere.intro (pointer : Nat) : Anywhere pointer := trivial

/-- The pointer is at an address. -/
def At (address pointer : Nat) : Prop := pointer = address % space

/-- The pointer is in a bank. -/
def Within (bank pointer : Nat) : Prop := pointer / bankSize = bank

/-- The pointer has gone on from an address, one way or another. -/
def Past (address pointer : Nat) : Prop :=
  ∃ advance : Advance, pointer = advance.next (address % space)

theorem At.within {bank offset c : Nat} (hb : bank < 0x100) (h : At (inBank bank offset) c) :
    Within bank c := by
  rw [h, Within, Nat.mod_eq_of_lt (inBank_lt hb offset)]
  have := Nat.mod_lt offset (show 0 < bankSize by decide)
  simp only [inBank, bankSize] at *
  omega

theorem Past.congr {a a' c : Nat} (h : Past a c) (ha : a % space = a' % space) : Past a' c := by
  obtain ⟨advance, hadvance⟩ := h
  exact ⟨advance, ha ▸ hadvance⟩

/-- Within a bank both ways are one. -/
theorem Past.at_next {address c : Nat} (h : Past address c) (hne : (address + 1) % bankSize ≠ 0) :
    At (address + 1) c := by
  obtain ⟨advance, rfl⟩ := h
  exact advance.next_mod hne

theorem Past.inBank {bank offset c : Nat} (hb : bank < 0x100) (h : Past (inBank bank offset) c)
    (hne : (offset + 1) % bankSize ≠ 0) : At (inBank bank (offset + 1)) c := by
  obtain ⟨advance, rfl⟩ := h
  rw [At, Nat.mod_eq_of_lt (inBank_lt hb offset), Nat.mod_eq_of_lt (inBank_lt hb (offset + 1)),
    advance.next_eq_inBank hb hne]

end Monitor

namespace Debugger

/-! ## Lockstep -/

namespace Procedure

open Monitor

/-- On two boards that are alike the procedure has the same value, tells the user the same and
sends the same, and they are alike afterwards.  Before and after, both pointers have a property. -/
def Lockstep {α : Type} (P : Nat → Prop) (p : Procedure α) (Q : Nat → Prop) : Prop :=
  ∀ a b : Monitor, Both P a b →
    ∃ v a' b' told sent, run p a = ⟨v, a', told, sent⟩ ∧ run p b = ⟨v, b', told, sent⟩ ∧
      Both Q a' b'

namespace Lockstep

variable {α β : Type} {P Q R S T : Nat → Prop}

theorem pure (v : α) : Lockstep P (pure v : Procedure α) P :=
  fun a b h => ⟨v, a, b, [], [], rfl, rfl, h⟩

/-- **Lockstep composes.** -/
theorem bind {p : Procedure α} {f : α → Procedure β} (hp : Lockstep P p Q)
    (hf : ∀ v, Lockstep Q (f v) R) : Lockstep P (p >>= f) R := by
  intro a b h
  obtain ⟨v, a₁, b₁, told₁, sent₁, ha₁, hb₁, h₁⟩ := hp a b h
  obtain ⟨w, a₂, b₂, told₂, sent₂, ha₂, hb₂, h₂⟩ := hf v a₁ b₁ h₁
  exact ⟨w, a₂, b₂, _, _, run_bind_of ha₁ ha₂, run_bind_of hb₁ hb₂, h₂⟩

theorem consequence {p : Procedure α} (hp : Lockstep P p Q) (hpre : ∀ c < space, S c → P c)
    (hpost : ∀ c < space, Q c → T c) : Lockstep S p T := by
  intro a b h
  obtain ⟨v, a', b', told, sent, ha, hb, h'⟩ :=
    hp a b ⟨h.alike, hpre _ a.pointer_lt h.left, hpre _ b.pointer_lt h.right⟩
  exact ⟨v, a', b', told, sent, ha, hb, h'.alike, hpost _ a'.pointer_lt h'.left,
    hpost _ b'.pointer_lt h'.right⟩

/-- More is known before. -/
theorem before {p : Procedure α} (hp : Lockstep P p Q) (hpre : ∀ c < space, S c → P c) :
    Lockstep S p Q :=
  hp.consequence hpre fun _ _ h => h

/-- Less is known afterwards. -/
theorem after {p : Procedure α} (hp : Lockstep P p Q) (hpost : ∀ c < space, Q c → T c) :
    Lockstep P p T :=
  hp.consequence (fun _ _ h => h) hpost

/-- Nothing is known afterwards. -/
theorem forget {p : Procedure α} (hp : Lockstep P p Q) : Lockstep P p Anywhere :=
  hp.after fun c _ _ => .intro c

/-- A procedure that leaves every board as it is. -/
theorem of_idle {p : Procedure α} {v : α} {told : List Entry}
    (h : ∀ m, run p m = ⟨v, m, told, []⟩) : Lockstep P p P :=
  fun a b hab => ⟨v, a, b, told, [], h a, h b, hab⟩

end Lockstep

/-! ### The primitives -/

variable {P : Nat → Prop}

theorem say_lockstep (text : String) : Lockstep P (say text) P := .of_idle (run_say text)

theorem note_lockstep (level : Log.Level) (text : String) : Lockstep P (note level text) P :=
  .of_idle (run_note level text)

theorem settle_lockstep (micros : Nat) : Lockstep P (settle micros) P :=
  .of_idle (run_settle micros)

theorem halt_lockstep : Lockstep P halt P := by
  intro a b h
  refine ⟨(), _, _, _, _, run_halt a, run_halt b, h.alike.halted.both ?_ ?_⟩
  · rw [Nat.mod_eq_of_lt a.pointer_lt]
    exact h.left
  · rw [Nat.mod_eq_of_lt b.pointer_lt]
    exact h.right

theorem stop_lockstep : Lockstep P (send [']']) Anywhere := by
  intro a b h
  refine ⟨(), _, _, _, _, run_send _ a, run_send _ b, ?_⟩
  rw [receiveAll_stop, receiveAll_stop]
  exact h.alike.stopped.both (.intro _) (.intro _)

theorem selectBank_lockstep (bank : Nat) :
    Lockstep P (selectBank bank) (At (bank * Monitor.bankSize)) :=
  fun a b h => ⟨(), _, _, _, _, run_selectBank a bank, run_selectBank b bank,
    h.alike.both rfl rfl⟩

theorem setAddress_lockstep (address : Nat) : Lockstep P (setAddress address) (At address) :=
  fun a b h => ⟨(), _, _, _, _, run_setAddress a address, run_setAddress b address,
    h.alike.both rfl rfl⟩

theorem setOffset_lockstep (bank offset : Nat) :
    Lockstep (Within bank) (setOffset offset) (At (inBank bank offset)) := by
  intro a b h
  have ha := run_setOffset a offset
  have hb := run_setOffset b offset
  rw [show a.pointer / Monitor.bankSize = bank from h.left] at ha
  rw [show b.pointer / Monitor.bankSize = bank from h.right] at hb
  exact ⟨(), _, _, _, _, ha, hb, h.alike.both rfl rfl⟩

theorem storeByte_lockstep (address : Nat) (v : UInt8) :
    Lockstep (At address) (storeByte v) (Past address) := by
  intro a b h
  have ha := run_storeByte a v
  have hb := run_storeByte b v
  rw [show a.pointer = address % space from h.left] at ha
  rw [show b.pointer = address % space from h.right] at hb
  refine ⟨(), _, _, _, _, ha, hb, (h.alike.store _ v).both ⟨a.advance, ?_⟩ ⟨b.advance, ?_⟩⟩
  · exact Nat.mod_eq_of_lt (a.advance.next_lt (Nat.mod_lt _ (by decide)))
  · exact Nat.mod_eq_of_lt (b.advance.next_lt (Nat.mod_lt _ (by decide)))

theorem reply_lockstep : Lockstep P reply P := by
  intro a b h
  obtain ⟨result, rest, ha, hb⟩ := Session.readReply_alike h.alike.replies
  rw [run_reply, run_reply, Intent.run, Intent.run, ha, hb]
  cases result with
  | ok v => exact ⟨_, _, _, _, _, rfl, rfl, h.alike.withReplies rest, h.left, h.right⟩
  | error fault => exact ⟨_, _, _, _, _, rfl, rfl, h.alike.withReplies rest, h.left, h.right⟩

/-- A byte fetched is the same one on both boards, whatever answers have been waiting. -/
theorem fetchByte_lockstep (address : Nat) :
    Lockstep (At address) fetchByte (Past address) := by
  refine Lockstep.bind (Q := Past address) (fun a b h => ?_) fun _ => reply_lockstep
  have hvalue : a.load a.pointer = b.load b.pointer := by
    rw [show a.pointer = address % space from h.left,
      show b.pointer = address % space from h.right, h.alike.load]
  have hreplies : a.replies ++ (Hex.digits (a.load a.pointer).toNat 2).map Bytes.ofChar
      = b.replies ++ (Hex.digits (b.load b.pointer).toNat 2).map Bytes.ofChar := by
    rw [hvalue, h.alike.replies]
  refine ⟨(), _, _, _, _, run_send _ a, run_send _ b, ?_⟩
  rw [receiveAll_fetch, receiveAll_fetch, hreplies]
  refine (h.alike.withReplies _).both ⟨a.advance, ?_⟩ ⟨b.advance, ?_⟩
  · rw [Nat.mod_eq_of_lt (a.advance.next_lt a.pointer_lt)]
    exact congrArg a.advance.next h.left
  · rw [Nat.mod_eq_of_lt (b.advance.next_lt b.pointer_lt)]
    exact congrArg b.advance.next h.right

/-! ### Sequences on the chip -/

theorem sendCommand_past (bank offset : Nat) (v : UInt8) :
    Lockstep (Within bank) (sendCommand offset v) (Past (inBank bank offset)) :=
  (setOffset_lockstep bank offset).bind fun _ => storeByte_lockstep _ v

/-- A byte stored before the end of a bank leaves both pointers in the bank. -/
theorem sendCommand_lockstep {bank offset : Nat} (hb : bank < 0x100)
    (ho : (offset + 1) % Monitor.bankSize ≠ 0) (v : UInt8) :
    Lockstep (Within bank) (sendCommand offset v) (Within bank) :=
  (sendCommand_past bank offset v).after fun _ _ h => (h.inBank hb ho).within hb

section

variable {bank : Nat} (hb : bank < 0x100)
include hb

theorem unlock_lockstep : Lockstep (Within bank) unlock (Within bank) :=
  (sendCommand_lockstep hb (by decide) 0xAA).bind fun _ =>
    sendCommand_lockstep hb (by decide) 0x55

theorem eraseSetup_lockstep : Lockstep (Within bank) eraseSetup (Within bank) :=
  (unlock_lockstep hb).bind fun _ =>
    (sendCommand_lockstep hb (by decide) 0x80).bind fun _ => unlock_lockstep hb

theorem selectBank_within : Lockstep P (selectBank bank) (Within bank) := by
  refine (selectBank_lockstep bank).after fun c _ h => ?_
  simp only [At, Within, Monitor.bankSize, space] at *
  omega

theorem eraseChip_lockstep : Lockstep P (eraseChip bank) (Within bank) :=
  halt_lockstep.bind fun _ => (selectBank_within hb).bind fun _ =>
    (eraseSetup_lockstep hb).bind fun _ =>
      (sendCommand_lockstep hb (by decide) 0x10).bind fun _ => settle_lockstep _

/-- Programming needs the pointer in the bank of the byte, and may leave it anywhere if the byte is
the last of its bank. -/
theorem programByte_lockstep (address : Nat) (v : UInt8) :
    Lockstep (Within bank) (programByte address v) (Past (inBank bank address)) := by
  have hlast := sendCommand_past bank (address % bankSize) v
  rw [show inBank bank (address % bankSize) = inBank bank address by
    simp only [inBank, bankSize, Monitor.bankSize, Nat.mod_mod]] at hlast
  exact (unlock_lockstep hb).bind fun _ =>
    (sendCommand_lockstep hb (by decide) 0xA0).bind fun _ => hlast

/-- The two bytes of an identity are at the start of a bank. -/
theorem chipIdentity_lockstep : Lockstep P (chipIdentity bank) (Within bank) :=
  stop_lockstep.bind fun _ => (selectBank_within hb).bind fun _ =>
    (unlock_lockstep hb).bind fun _ => (sendCommand_lockstep hb (by decide) 0x90).bind fun _ =>
    (setOffset_lockstep bank 0).bind fun _ =>
    ((fetchByte_lockstep _).after fun _ _ h => h.inBank hb (by decide)).bind fun _ =>
    ((fetchByte_lockstep _).after fun _ _ h => (h.inBank hb (by decide)).within hb).bind fun _ =>
    (unlock_lockstep hb).bind fun _ => (sendCommand_lockstep hb (by decide) 0xF0).bind fun _ =>
    .pure _

end

/-- The last cycle of a sector erase may be at the end of a bank, but nothing follows it. -/
theorem eraseSector_lockstep (address : Nat) : Lockstep P (eraseSector address) Anywhere := by
  have hb : sectorBank address < 0x100 := by
    unfold sectorBank
    omega
  have hown : ∀ c < space, At (address / bankSize * Monitor.bankSize) c →
      Within (address / bankSize % 0x100) c := by
    intro c _ h
    simp only [At, Within, bankSize, Monitor.bankSize, space] at *
    omega
  exact halt_lockstep.bind fun _ => (selectBank_within hb).bind fun _ =>
    (eraseSetup_lockstep hb).bind fun _ => ((selectBank_lockstep _).after hown).bind fun _ =>
    (sendCommand_past _ _ 0x30).forget.bind fun _ => settle_lockstep _

theorem mapPairs_lockstep (i n : Nat) (h : i + n ≤ 16) :
    Lockstep (Within mapperBank) (mapPairs i n) (Within mapperBank) := by
  have hb : mapperBank < 0x100 := by decide
  induction n generalizing i with
  | zero => exact .pure ()
  | succ n ih =>
    have hfirst : (2 * i + 1) % Monitor.bankSize ≠ 0 := by
      simp only [Monitor.bankSize]
      omega
    have hsecond : (2 * i + 1 + 1) % Monitor.bankSize ≠ 0 := by
      simp only [Monitor.bankSize]
      omega
    exact (sendCommand_lockstep hb hfirst _).bind fun _ =>
      (sendCommand_lockstep hb hsecond _).bind fun _ => ih (i + 1) (by omega)

end Procedure

/-! ## Object files -/

namespace Purpose

open Monitor Procedure

variable {P : Nat → Prop} (p : Purpose)

theorem report_lockstep (index total : Nat) : Lockstep P (p.report index total) P := by
  rw [report]
  split
  · exact .of_idle (run_progress _)
  · exact .pure ()

theorem point_lockstep (address : Nat) : Lockstep P (p.point address) (p.Aimed · address) := by
  have hset : Lockstep P (setAddress address) fun c => c % space = address % space := by
    refine (setAddress_lockstep address).after fun c hc h => ?_
    rw [Nat.mod_eq_of_lt hc]
    exact h
  cases p with
  | flash =>
    refine (selectBank_lockstep (address / Procedure.bankSize)).after fun c _ h => ?_
    simp only [At, Aimed, Procedure.bankSize, Monitor.bankSize, space] at *
    omega
  | program => exact hset
  | verify => exact hset
  | verifyRom => exact hset

/-- Wherever the pointers have gone at the end of a bank, they are right again before the next
byte. -/
theorem aim_lockstep (base index : Nat) :
    Lockstep (p.Ready base index) (p.aim base index) (p.Aimed · (base + index)) := by
  by_cases hb : index ≠ 0 ∧ (base + index) % Procedure.bankSize = 0
  · rw [aim, if_pos hb]
    exact (p.point_lockstep _).after fun c _ h => h.congr (mod_addressSpace _)
  · rw [aim, if_neg hb]
    exact (Lockstep.pure ()).after fun c _ h => h.resolve_left hb

/-- The pointers past a byte are ready for the next one. -/
theorem ready_of_past {p : Purpose} {base index c : Nat} (h : Past (base + index) c) :
    p.Ready base (index + 1) c := by
  refine ready_of_next fun hne => ?_
  have hnext : c % space = (base + index + 1) % space := by
    rw [h.at_next hne, Nat.mod_mod]
  cases p with
  | flash => exact congrArg (· / Monitor.bankSize) hnext
  | program => exact hnext
  | verify => exact hnext
  | verifyRom => exact hnext

theorem check_lockstep {base index : Nat} (address : Nat) (b : UInt8) :
    Lockstep (fun c => c % space = (base + index) % space) (check address b)
      (p.Ready base (index + 1)) := by
  have hfetch : Lockstep (fun c => c % space = (base + index) % space) fetchByte
      (p.Ready base (index + 1)) :=
    (fetchByte_lockstep (base + index)).consequence
      (fun c hc h => (Nat.mod_eq_of_lt hc).symm.trans h) fun c _ h => ready_of_past h
  refine hfetch.bind fun actual => ?_
  split
  · exact .pure _
  · exact (note_lockstep _ _).bind fun _ => (say_lockstep _).bind fun _ => .pure _

/-- One byte written or compared, with both pointers ready for the next one. -/
theorem byte_lockstep (base index : Nat) (b : UInt8) :
    Lockstep (p.Aimed · (base + index)) (p.byte ((base + index) % addressSpace) b)
      (p.Ready base (index + 1)) := by
  have hmod := mod_addressSpace (base + index)
  cases p with
  | program =>
    have hstore := (storeByte_lockstep (base + index) b).consequence
      (S := (Purpose.program.Aimed · (base + index)))
      (fun c hc h => (Nat.mod_eq_of_lt hc).symm.trans h)
      (fun c _ h => ready_of_past (p := .program) h)
    exact hstore.bind fun _ => .pure _
  | verify => exact check_lockstep .verify _ b
  | verifyRom => exact check_lockstep .verifyRom _ b
  | flash =>
    rw [byte]
    by_cases hff : b = 0xFF
    · -- a skipped byte leaves both pointers in its bank
      rw [if_pos hff]
      refine (Lockstep.pure ()).bind fun _ => (Lockstep.pure _).after fun c _ h =>
        ready_of_next fun hne => ?_
      simp only [Aimed, Procedure.bankSize, Monitor.bankSize, space] at *
      omega
    · rw [if_neg hff]
      have hb : (base + index) % space / Monitor.bankSize < 0x100 :=
        Nat.div_lt_of_lt_mul (Nat.mod_lt _ (by decide))
      -- the last cycle goes to the address itself, by its place in the bank
      have hplace : inBank ((base + index) % space / Monitor.bankSize)
          ((base + index) % addressSpace) % space = (base + index) % space := by
        simp only [inBank, Monitor.bankSize, space, addressSpace]
        omega
      have hprogram := (programByte_lockstep hb ((base + index) % addressSpace) b).consequence
        (S := (Purpose.flash.Aimed · (base + index))) (fun c hc h => (Nat.mod_eq_of_lt hc ▸ h))
        (fun c _ h => ready_of_past (p := .flash) (h.congr hplace))
      exact hprogram.bind fun _ => .pure _

/-- Bytes written or compared, by induction on what is left of them. -/
theorem bytes_lockstep (base total : Nat) (data : Bytes) (index : Nat) :
    Lockstep (p.Ready base index) (p.bytes base total index data) Anywhere := by
  induction data generalizing index with
  | nil => exact (Lockstep.pure _).forget
  | cons b rest ih =>
    rw [bytes_cons]
    refine (p.report_lockstep index total).bind fun _ => (p.aim_lockstep base index).bind fun _ =>
      (p.byte_lockstep base index b).bind fun flow => ?_
    cases flow with
    | onward => exact ih (index + 1)
    | abort => exact (Lockstep.pure _).forget

theorem segment_lockstep (s : Segment) : Lockstep P (p.segment s) Anywhere :=
  (p.point_lockstep (p.address s)).bind fun _ =>
    (p.bytes_lockstep (p.address s) s.data.length s.data 0).before fun _ _ h => .inr h

theorem segments_lockstep (segments : List Segment) (number : Nat) :
    Lockstep P (p.segments number segments) Anywhere := by
  induction segments generalizing number P with
  | nil => exact (Lockstep.pure _).forget
  | cons s rest ih =>
    rw [segments_cons]
    refine (say_lockstep _).bind fun _ => (p.segment_lockstep s).bind fun flow => ?_
    cases flow with
    | onward => exact (say_lockstep _).bind fun _ => ih (number + 1)
    | abort => exact .pure _

theorem prepare_lockstep : Lockstep P p.prepare Anywhere := by
  cases p with
  | program => exact (Lockstep.pure _).forget
  | verify => exact (Lockstep.pure _).forget
  | flash =>
    exact (say_lockstep _).bind fun _ => (eraseChip_lockstep (by decide)).forget.bind fun _ =>
      say_lockstep _
  | verifyRom => exact (say_lockstep _).forget

/-- **An object file is handled in lockstep**, from wherever the pointers are. -/
theorem transfer_lockstep (segments : List Segment) :
    Lockstep P (p.transfer segments) Anywhere := by
  rw [transfer_eq]
  refine halt_lockstep.bind fun _ => p.prepare_lockstep.bind fun _ =>
    (p.segments_lockstep segments 0).bind fun flow => ?_
  cases flow with
  | onward => exact say_lockstep _
  | abort => exact .pure _

end Purpose

/-! ## Commands -/

namespace Command

open Monitor Procedure

/-- The command is about files or the flash chip or maps the RAM. -/
def aims : Command → Bool
  | .transfer .. | .mapRam | .erase | .eraseSector _ | .chipId => true
  | _ => false

variable {P : Nat → Prop}

theorem transferFile_lockstep (loader : Loader) (p : Purpose) (file : Option String) :
    Lockstep P (transferFile loader p file) Anywhere := by
  cases file with
  | none => exact (say_lockstep _).forget
  | some file =>
    refine (Lockstep.of_idle (run_notes _)).bind fun _ => ?_
    cases loader.load file with
    | error fault => exact (say_lockstep _).forget
    | ok segments => exact p.transfer_lockstep segments

/-- **A command that aims by itself does the same on both boards.** -/
theorem procedure_lockstep (loader : Loader) {command : Command} (h : command.aims = true) :
    Lockstep P (command.procedure loader) Anywhere := by
  have hflash : flashBank < 0x100 := by decide
  cases command with
  | transfer p file => exact transferFile_lockstep loader p file
  | mapRam =>
    have hmapper : mapperBank < 0x100 := by decide
    exact halt_lockstep.bind fun _ => (selectBank_within hmapper).bind fun _ =>
      (mapPairs_lockstep 0 16 (Nat.le_refl _)).bind fun _ => (say_lockstep _).forget
  | erase => exact (eraseChip_lockstep hflash).bind fun _ => (say_lockstep _).forget
  | eraseSector address =>
    match address with
    | none => exact (say_lockstep _).forget
    | some (.invalid token) => exact (say_lockstep _).forget
    | some (.valid address) => exact (eraseSector_lockstep address).bind fun _ => say_lockstep _
  | chipId =>
    exact (chipIdentity_lockstep hflash).bind fun _ => (note_lockstep _ _).bind fun _ =>
      (say_lockstep _).forget
  | _ => cases h

end Command

/-! ## Sessions -/

namespace Session

open Monitor Procedure

/-- The session with a board whose pointer goes on in a certain way. -/
def withAdvance (s : Session (Tap Monitor)) (advance : Advance) : Session (Tap Monitor) :=
  ⟨⟨{ s.link.link with advance }, s.link.traffic⟩, s.pacing, s.transcript, s.log⟩

/-- Commands dispatched one after another, each with the object files it finds. -/
def dispatchLines (s : Session (Tap Monitor)) (lines : List (Loader × List String)) :
    Session (Tap Monitor) :=
  lines.foldl (fun s line => s.dispatch line.1 line.2) s

/-- Two sessions that look the same to the user and on the wire, on boards that are alike. -/
structure Twins (s t : Session (Tap Monitor)) : Prop where
  transcript : s.transcript.toList = t.transcript.toList
  sent : s.link.sent = t.link.sent
  board : s.link.link.Alike t.link.link

/-- What one command keeps. -/
theorem Twins.dispatch {s t : Session (Tap Monitor)} (h : s.Twins t) (loader : Loader)
    {words : List String} (hwords : ∀ command ∈ Command.parse words, command.aims = true) :
    (s.dispatch loader words).Twins (t.dispatch loader words) := by
  cases hparse : Command.parse words with
  | none =>
    rw [Session.dispatch, Session.dispatch, hparse]
    exact h
  | some command =>
    have hs : s.Follows _ ((), s.dispatch loader words) := dispatch_run s hparse
    have ht : t.Follows _ ((), t.dispatch loader words) := dispatch_run t hparse
    obtain ⟨v, a', b', told, sent, ha, hb, hboth⟩ :=
      Command.procedure_lockstep loader (hwords command hparse) _ _
        ⟨h.board, Anywhere.intro _, Anywhere.intro _⟩
    rw [ha] at hs
    rw [hb] at ht
    refine ⟨?_, ?_, ?_⟩
    · rw [hs.transcript, ht.transcript, h.transcript]
    · rw [hs.sent, ht.sent, h.sent]
    · rw [hs.board, ht.board]
      exact hboth.alike

/-- What a run of commands keeps. -/
theorem Twins.dispatchLines {s t : Session (Tap Monitor)} (h : s.Twins t)
    {lines : List (Loader × List String)}
    (hlines : ∀ line ∈ lines, ∀ command ∈ Command.parse line.2, command.aims = true) :
    (s.dispatchLines lines).Twins (t.dispatchLines lines) := by
  induction lines generalizing s t with
  | nil => exact h
  | cons line lines ih =>
    obtain ⟨hline, hrest⟩ := List.forall_mem_cons.mp hlines
    exact ih (h.dispatch line.1 hline) hrest

/-- Boards that differ only in how the pointer goes on are alike. -/
theorem twins_withAdvance (s : Session (Tap Monitor)) (advance advance' : Advance) :
    (s.withAdvance advance).Twins (s.withAdvance advance') :=
  ⟨rfl, rfl, ⟨rfl, rfl, rfl, rfl⟩⟩

/-- **No command on files or on the flash chip relies on the pointer going on into the next
bank.**  A sequence of such commands, with any arguments and files and from any state of the board,
tells the user the same, sends the same and leaves the same memory, mapper and chip, whether the
pointer goes on through all of memory or around within its bank. -/
theorem dispatch_lockstep (s : Session (Tap Monitor)) (lines : List (Loader × List String))
    (hlines : ∀ line ∈ lines, ∀ command ∈ Command.parse line.2, command.aims = true) :
    let linear := (s.withAdvance .linear).dispatchLines lines
    let banked := (s.withAdvance .banked).dispatchLines lines
    linear.transcript = banked.transcript ∧ linear.link.sent = banked.link.sent ∧
      linear.link.link.ram = banked.link.link.ram ∧
      linear.link.link.remap = banked.link.link.remap ∧
      linear.link.link.chip = banked.link.link.chip := by
  intro linear banked
  have h : linear.Twins banked := (s.twins_withAdvance .linear .banked).dispatchLines hlines
  exact ⟨Array.toList_inj.mp h.transcript, h.sent, h.board.ram, h.board.remap, h.board.chip⟩

/-- Files that end with a bank and go on over the end of one, among all the other commands.  After
the first of them the pointers have parted. -/
theorem dispatch_lockstep_bank_end :
    let s : Session (Tap Monitor) := ⟨⟨{}, #[]⟩, ⟨0⟩, #[], .quiet⟩
    let first : List (Loader × List String) := [(.fixed [⟨0x1FFFF, [1]⟩], ["program", "a"])]
    let lines : List (Loader × List String) :=
      first ++ [(.fixed [⟨0xFFFF, [1, 2]⟩, ⟨0xFFFFFF, [3]⟩], ["verify", "a"]),
        (.fixed [⟨0xFFFE, [1, 0xFF, 2]⟩], ["flash", "a"]),
        (.fixed [⟨0xFFFE, [1, 0xFF, 2]⟩], ["verify-rom", "a"]),
        (.fixed [], ["erase-sector", "0x20FFFF"]), (.fixed [], ["chipid"]),
        (.fixed [], ["mapram"]), (.fixed [], ["erase"])]
    ((s.withAdvance .linear).dispatchLines first).link.link.pointer = 0x20000 ∧
      ((s.withAdvance .banked).dispatchLines first).link.link.pointer = 0x10000 ∧
      let linear := (s.withAdvance .linear).dispatchLines lines
      let banked := (s.withAdvance .banked).dispatchLines lines
      linear.transcript = banked.transcript ∧ linear.link.sent = banked.link.sent ∧
        linear.link.link.ram = banked.link.link.ram ∧
        linear.link.link.remap = banked.link.link.remap ∧
        linear.link.link.chip = banked.link.link.chip := by
  intro s first lines
  have hlines : ∀ line ∈ lines, ∀ command ∈ Command.parse line.2, command.aims = true := by
    decide +kernel
  exact ⟨by decide +kernel, by decide +kernel, dispatch_lockstep s lines hlines⟩

end Session

end Debugger

end BoardConsole
