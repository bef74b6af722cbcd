import BoardConsole.Proofs.Readiness

/-!
# Looking after the chip

Erasing the chip, erasing one of its sectors and asking for its identity do their job on a chip
that is ready and leave everything else on the board as it was.  A sector is found from the address
alone, although the command is opened in another bank than the one it is given in.

- `Chip.getElem?_sectorWiped`: **exactly the bytes of one sector are erased**.
- `Procedure.run_chipIdentity_ready`: the identity is what the chip was made with, and nothing comes
  of asking for it.
- `describeChip_injective`: what is said about an identity tells which one it is.
- `upkeep_exact`: what each of the commands comes to.
-/

namespace BoardConsole

namespace Monitor

namespace Chip

variable {c : Chip}

/-- **Exactly the bytes of one sector are erased**: those whose offsets are in the sector of the
offset that is named. -/
theorem getElem?_sectorWiped (hpos : 0 < c.part.sector) (hdvd : c.part.sector ∣ c.part.size)
    {o : Nat} (ho : o < c.part.size) (i : Nat) :
    (c.sectorWiped o).data[i]?
      = if i / c.part.sector = o / c.part.sector then some erased else c.data[i]? := by
  rw [data_sectorWiped hpos]
  split
  · rename_i hsame
    -- the sectors fill the chip, so the whole sector of an offset of the chip is in the chip
    have hi : i < c.data.size := by
      rw [c.size_data]
      obtain ⟨count, hcount⟩ := hdvd
      rw [hcount, Nat.mul_comm, ← Nat.div_lt_iff_lt_mul hpos] at ho ⊢
      rw [hsame]
      exact ho
    rw [Array.getElem?_eq_getElem hi]
    rfl
  · exact Option.map_id' ..

end Chip

end Monitor

namespace Debugger

/-! ## Identity -/

namespace Procedure

open Monitor (inBank space)

/-- A chip that shows its identity answers with it, whichever of its bytes is fetched. -/
theorem run_fetchByte_identity {m : Monitor} (hpart : m.chip.part.FillsBanks)
    (hshows : m.chip.showsIdentity = true) (hreplies : m.replies = []) {offset : Nat}
    (hsize : offset < m.chip.part.size) (hbank : offset + 1 < Monitor.bankSize) :
    run fetchByte (m.pointAt (inBank flashBank offset))
      = ⟨if offset % 2 = 0 then m.chip.part.manufacturer else m.chip.part.device,
        m.pointAt (inBank flashBank (offset + 1)), [], Utf8.encode ['@']⟩ := by
  have hb : flashBank < 0x100 := by decide
  have hnext : (offset + 1) % Monitor.bankSize ≠ 0 := by
    rw [Nat.mod_eq_of_lt hbank]
    exact Nat.succ_ne_zero offset
  have hplace : m.chip.part.offset? (inBank flashBank offset) = some offset := by
    refine Monitor.Part.offset?_eq_some_iff.mpr ⟨?_, hsize⟩
    rw [inBank, hpart.base, Nat.mod_eq_of_lt (Nat.lt_of_succ_lt hbank)]
    rfl
  rw [run_fetchByte (m.pointAt _) hreplies, Monitor.pointAt_pointer, Monitor.pointAt_load,
    Monitor.pointAt_pointAt, Monitor.pointAt_advance,
    Nat.mod_eq_of_lt (Monitor.inBank_lt hb offset), Monitor.load_of_chip hplace,
    m.advance.next_eq_inBank hb hnext, Monitor.Chip.read, if_pos hshows]

/-- **The identity is what the chip was made with**, and nothing comes of asking for it but that the
board is stopped. -/
theorem run_chipIdentity_ready {m : Monitor} (hpart : m.chip.part.FillsBanks)
    (hready : m.chip.Ready) (hreplies : m.replies = []) :
    ∃ c sent, run (chipIdentity flashBank) m
      = ⟨(m.chip.part.manufacturer, m.chip.part.device), m.stopped.pointAt c, [], sent⟩ := by
  have hsize : 1 < m.chip.part.size := by
    have := hpart.pos
    have := hpart.whole
    omega
  have hentry := Monitor.stores_entry (m := m.stopped) hpart hready.state
  obtain ⟨shown, hshown⟩ : ∃ shown, shown = m.stopped.stores (entryCycles flashBank) := ⟨_, rfl⟩
  rw [← hshown] at hentry
  obtain ⟨hkind, hshows, hempty⟩ : shown.chip.part = m.chip.part ∧
      shown.chip.showsIdentity = true ∧ shown.replies = [] := by
    rw [hentry]
    exact ⟨rfl, rfl, hreplies⟩
  rw [← hkind] at hpart hsize ⊢
  have h₁ := run_fetchByte_identity hpart hshows hempty hpart.pos (by decide)
  have h₂ := run_fetchByte_identity hpart hshows hempty hsize (by decide)
  obtain ⟨c, sent, hrun⟩ := run_chipIdentity_of (by decide) (by rw [← hshown]; exact h₁) h₂
  -- hiding the identity again takes the chip back to what it was
  have hback : shown.stores (exitCycles flashBank) = m.stopped := by
    rw [Monitor.stores_exit hpart (by rw [hentry]), hentry]
    show { m.stopped with chip := { m.chip with state := .read, showsIdentity := false } }
      = m.stopped
    rw [← hready.state, ← hready.identity]
    rfl
  rw [hback] at hrun
  exact ⟨c, sent, hrun⟩

end Procedure

/-! ## What is said about it -/

/-- Two digits tell which byte they show, whatever comes after them. -/
theorem digits_append_inj {a b : UInt8} {rest rest' : List Char}
    (h : Hex.digits a.toNat 2 ++ rest = Hex.digits b.toNat 2 ++ rest') : a = b ∧ rest = rest' := by
  obtain ⟨hdigits, hrest⟩ := List.append_inj h rfl
  have hdecode := Hex.decodeByte_digits a
  rw [hdigits, Hex.decodeByte_digits] at hdecode
  exact ⟨(Except.ok.inj hdecode).symm, hrest⟩

theorem byte_injective {a b : UInt8} (h : Hex.byte a = Hex.byte b) : a = b := by
  have hdigits := congrArg (fun text => text.toList ++ []) h
  simp only [Hex.byte, String.toList_ofList] at hdigits
  exact (digits_append_inj hdigits).1

/-- What is said about a device of the manufacturer that is known by name. -/
def modelName (device : UInt8) : String :=
  if device = 0xD5 then "39xF010 (128K)"
  else if device = 0xD6 then "39xF020 (256K)"
  else if device = 0xD7 then "39xF040 (512K)"
  else "0x" ++ Hex.byte device

/-- A number is no name of a model. -/
theorem number_ne_name {device : UInt8} {name : String} (h : name.toList.head? = some '3') :
    "0x" ++ Hex.byte device ≠ name := by
  rintro rfl
  rw [String.toList_append] at h
  cases h

theorem modelName_injective {a b : UInt8} (h : modelName a = modelName b) : a = b := by
  unfold modelName at h
  split_ifs at h
  -- two names, a name and a number either way, or two numbers
  all_goals first
    | (subst_vars; rfl)
    | exact absurd h (by decide)
    | exact absurd h.symm (number_ne_name rfl)
    | exact absurd h (number_ne_name rfl)
    | exact byte_injective (String.append_right_inj _ |>.mp h)

theorem describeChip_named (device : UInt8) :
    describeChip 0xBF device = "Manufacturer: SST, device: " ++ modelName device := rfl

theorem describeChip_numbered {manufacturer : UInt8} (h : manufacturer ≠ 0xBF) (device : UInt8) :
    (describeChip manufacturer device).toList = "Manufacturer: 0x".toList ++
      (Hex.digits manufacturer.toNat 2 ++
        (", device: 0x".toList ++ Hex.digits device.toNat 2)) := by
  rw [describeChip, if_neg h]
  simp only [toString, Hex.byte, String.toList_append, String.toList_ofList, List.append_assoc]

/-- A manufacturer that is known by name is not described like one that is not. -/
theorem describeChip_named_ne {manufacturer : UInt8} (h : manufacturer ≠ 0xBF)
    (device device' : UInt8) : describeChip 0xBF device ≠ describeChip manufacturer device' := by
  intro heq
  have hlist := congrArg String.toList heq
  rw [describeChip_named, String.toList_append, describeChip_numbered h] at hlist
  -- the name stands where the number is announced
  have hhead := congrArg (fun cs => (cs.drop 14).head?) hlist
  cases hhead

/-- **What is said about an identity tells which one it is.** -/
theorem describeChip_injective {manufacturer device manufacturer' device' : UInt8}
    (h : describeChip manufacturer device = describeChip manufacturer' device') :
    manufacturer = manufacturer' ∧ device = device' := by
  by_cases hnamed : manufacturer = 0xBF <;> by_cases hnamed' : manufacturer' = 0xBF
  · subst hnamed hnamed'
    rw [describeChip_named, describeChip_named] at h
    exact ⟨rfl, modelName_injective (String.append_right_inj _ |>.mp h)⟩
  · subst hnamed
    exact absurd h (describeChip_named_ne hnamed' _ _)
  · subst hnamed'
    exact absurd h.symm (describeChip_named_ne hnamed _ _)
  · have hlist := congrArg String.toList h
    rw [describeChip_numbered hnamed, describeChip_numbered hnamed'] at hlist
    obtain ⟨hmanufacturer, hrest⟩ := digits_append_inj (List.append_cancel_left hlist)
    have hdevice := congrArg (· ++ []) (List.append_cancel_left hrest)
    exact ⟨hmanufacturer, (digits_append_inj hdevice).1⟩

end Debugger

/-! ## What the commands come to -/

/-- The board is as it was but for the contents of its chip, and the chip and the link are ready for
the next command. -/
structure Monitor.Kept (m after : Monitor) : Prop where
  ram : after.ram = m.ram
  remap : after.remap = m.remap
  part : after.chip.part = m.chip.part
  ready : after.chip.Ready
  replies : after.replies = []

namespace Debugger

open Monitor (erased)

section

variable {s : Session Monitor} (loader : Loader) {words : List String}

/-- A command that is parsed does what its run comes to. -/
theorem dispatch_of_run {command : Command} {m : Monitor} {told : List Entry} {sent : Bytes}
    (hwords : Command.parse words = some command)
    (hrun : Procedure.run (command.procedure loader) s.link = ⟨(), m, told, sent⟩) :
    (s.dispatch loader words).link = m ∧
      (s.dispatch loader words).transcript.toList = s.transcript.toList ++ told := by
  have hdispatch := @Session.dispatch_run_monitor loader words command s hwords
  rwa [hrun] at hdispatch

variable (hpart : s.link.chip.part.FillsBanks) (hready : s.link.chip.Ready)
  (hreplies : s.link.replies = [])
include hpart hready hreplies

theorem erase_outcome (hwords : Command.parse words = some .erase) :
    s.link.Kept (s.dispatch loader words).link ∧
      (s.dispatch loader words).link.chip = s.link.chip.wiped ∧
      (s.dispatch loader words).transcript.toList
        = s.transcript.toList ++ [.line "Flash ROM erased!"] := by
  obtain ⟨c, sent, hrun⟩ := Procedure.run_eraseChip (show flashBank < 0x100 by decide) s.link
  rw [Monitor.stores_wipeCycles (m := s.link.halted) hpart hready.state] at hrun
  obtain ⟨hlink, htold⟩ := dispatch_of_run loader hwords
    (Procedure.run_bind_of hrun (Procedure.run_say ..))
  rw [hlink]
  exact ⟨⟨rfl, rfl, rfl, ⟨rfl, hready.identity⟩, hreplies⟩, rfl, htold⟩

theorem eraseSector_outcome {o : Nat} (ho : o < s.link.chip.part.size)
    (hwords : Command.parse words
      = some (.eraseSector (some (.valid (s.link.chip.part.base + o))))) :
    s.link.Kept (s.dispatch loader words).link ∧
      (s.dispatch loader words).link.chip = s.link.chip.sectorWiped o ∧
      (s.dispatch loader words).transcript.toList = s.transcript.toList
        ++ [.line s!"Sector at 0x{Hex.upper (s.link.chip.part.base + o) 6} erased!"] := by
  -- the address is one of the board, so the bus is given the address that was typed
  have hplace :
      s.link.chip.part.offset? ((s.link.chip.part.base + o) % Monitor.space) = some o := by
    have hbase := hpart.base
    have hle := hpart.le
    rw [Nat.mod_eq_of_lt (by simp only [Monitor.space]; omega)]
    exact Monitor.Part.offset?_eq_some_iff.mpr ⟨rfl, ho⟩
  obtain ⟨c, sent, hrun⟩ := Procedure.run_eraseSector (s.link.chip.part.base + o) s.link
  rw [Monitor.stores_sectorCycles (m := s.link.halted) hpart hready.state hplace] at hrun
  obtain ⟨hlink, htold⟩ := dispatch_of_run loader hwords
    (Procedure.run_bind_of hrun (Procedure.run_say ..))
  rw [hlink]
  exact ⟨⟨rfl, rfl, rfl, ⟨rfl, hready.identity⟩, hreplies⟩, rfl, htold⟩

theorem chipId_outcome (hwords : Command.parse words = some .chipId) :
    s.link.Kept (s.dispatch loader words).link ∧
      (s.dispatch loader words).link.chip = s.link.chip ∧
      (s.dispatch loader words).transcript.toList = s.transcript.toList
        ++ [.line (describeChip s.link.chip.part.manufacturer s.link.chip.part.device)] := by
  obtain ⟨c, sent, hrun⟩ := Procedure.run_chipIdentity_ready hpart hready hreplies
  obtain ⟨hlink, htold⟩ := dispatch_of_run loader hwords
    (Procedure.run_bind_of hrun (Procedure.run_bind_of (Procedure.run_note ..)
      (Procedure.run_say ..)))
  rw [hlink]
  exact ⟨⟨rfl, rfl, rfl, hready, hreplies⟩, rfl, htold⟩

end

/-- **Looking after the chip does exactly that.**  On a chip that fills its banks with sectors and
is ready, with no replies waiting: erasing the chip makes every byte an erased one; erasing a sector
by an address of the chip makes exactly the bytes of that sector erased ones; and asking for the
identity changes nothing on the chip and reports the one that the chip was made with.  All three
leave the RAM and the registers of the memory mapper as they were, the chip ready and no replies. -/
theorem upkeep_exact (s : Session Monitor) (loader : Loader) (words : List String)
    (hpart : s.link.chip.part.FillsBanks) (hsector : 0 < s.link.chip.part.sector)
    (hwhole : s.link.chip.part.sector ∣ s.link.chip.part.size) (hready : s.link.chip.Ready)
    (hreplies : s.link.replies = []) :
    let part := s.link.chip.part
    let after := s.dispatch loader words
    (Command.parse words = some .erase →
      s.link.Kept after.link ∧
      (∀ o < part.size, after.link.chip.data[o]? = some erased) ∧
      after.transcript.toList = s.transcript.toList ++ [.line "Flash ROM erased!"]) ∧
    (∀ o < part.size, Command.parse words = some (.eraseSector (some (.valid (part.base + o)))) →
      s.link.Kept after.link ∧
      (∀ i, after.link.chip.data[i]?
        = if i / part.sector = o / part.sector then some erased else s.link.chip.data[i]?) ∧
      after.transcript.toList = s.transcript.toList
        ++ [.line s!"Sector at 0x{Hex.upper (part.base + o) 6} erased!"]) ∧
    (Command.parse words = some .chipId →
      s.link.Kept after.link ∧
      after.link.chip.data = s.link.chip.data ∧
      ∀ manufacturer device, after.transcript.toList
          = s.transcript.toList ++ [.line (describeChip manufacturer device)] ↔
        manufacturer = part.manufacturer ∧ device = part.device) := by
  intro part after
  refine ⟨fun hwords => ?_, fun o ho hwords => ?_, fun hwords => ?_⟩
  · obtain ⟨hkept, hchip, htold⟩ := erase_outcome loader hpart hready hreplies hwords
    refine ⟨hkept, fun o ho => ?_, htold⟩
    rw [hchip]
    exact s.link.chip.getElem?_wiped ho
  · obtain ⟨hkept, hchip, htold⟩ := eraseSector_outcome loader hpart hready hreplies ho hwords
    refine ⟨hkept, fun i => ?_, htold⟩
    rw [hchip]
    exact Monitor.Chip.getElem?_sectorWiped hsector hwhole ho i
  · obtain ⟨hkept, hchip, htold⟩ := chipId_outcome loader hpart hready hreplies hwords
    refine ⟨hkept, by rw [hchip], fun manufacturer device => ?_⟩
    rw [htold, List.append_cancel_left_eq, List.singleton_inj, Entry.line.injEq]
    constructor
    · intro h
      exact describeChip_injective h.symm
    · rintro ⟨rfl, rfl⟩
      rfl

/-- The last sector of three banks of zeros, all of them, and an identity without names. -/
theorem upkeep_exact_last_sector :
    let chip : Monitor.Chip :=
      (Monitor.Chip.blank
        { manufacturer := 0x1F, device := 0xD5, size := 0x30000, sector := 0x800 }).fill 0
    let s : Session Monitor :=
      ⟨{ chip, ram := .ofList [((0x10 : Nat), (0xAB : UInt8))] }, ⟨0⟩, #[], .quiet⟩
    let after := fun words => s.dispatch (.fixed []) words
    ((after ["erase-sector", "0x22FFFF"]).link.chip.data[0x2F7FF]? = some 0 ∧
      (after ["erase-sector", "0x22FFFF"]).link.chip.data[0x2F800]? = some erased) ∧
    (∀ o < 0x30000, (after ["erase"]).link.chip.data[o]? = some erased) ∧
    (after ["chipid"]).transcript.toList = [.line "Manufacturer: 0x1F, device: 0xD5"] := by
  intro chip s after
  have hexact := fun words => upkeep_exact s (.fixed []) words
    ⟨rfl, by decide, by decide, by decide⟩ (by decide) (by decide) ⟨rfl, rfl⟩ rfl
  have hsector := ((hexact ["erase-sector", "0x22FFFF"]).2.1 0x2FFFF (by decide)
    (by decide +kernel)).2.1
  refine ⟨⟨(hsector 0x2F7FF).trans ?_, (hsector 0x2F800).trans (if_pos (by decide))⟩,
    ((hexact ["erase"]).1 (by decide +kernel)).2.1,
    ((hexact ["chipid"]).2.2 (by decide +kernel)).2.2 0x1F 0xD5 |>.mpr ⟨rfl, rfl⟩⟩
  -- the byte before the sector is the zero that it was
  refine (if_neg (by decide)).trans ?_
  show (Array.replicate (Array.replicate 0x30000 erased).size (0 : UInt8))[0x2F7FF]? = some 0
  rw [Array.getElem?_replicate, Array.size_replicate]
  exact if_pos (by decide)

end Debugger

end BoardConsole
