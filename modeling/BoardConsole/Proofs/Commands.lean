import BoardConsole.Proofs.Maintenance
import Mathlib.Data.List.Induction

/-!
# Commands of the chip in the history of its writes

The chip remembers no write, only how far it has followed a command.  What it has followed is
nevertheless a fact about its last writes: they are the cycles that open a command, the first of
them came when no command was followed, and this decides what the next write does.

- `Decoder.trail`: the cycles that lead from plain reading to a state.
- `Decoder.Meant`: what a write has to be for what it means.
- `Chip.Opened`: the last writes are the cycles that open a command.
- `Chip.state_writes_iff`: **the state of the chip is the end of its history**.
- `Chip.writeChecked`: a write that indexes and slices only what is there.
- `Chip.writes_by_history`: **what a write does to the contents**, by the writes before it.
-/

namespace BoardConsole.Monitor

/-! ## Histories -/

/-- The write is a certain cycle: the same value at the same place, which the low fifteen bits of
the offset tell. -/
def IsCycle (w cycle : Nat × UInt8) : Prop := w.1 % 0x8000 = cycle.1 ∧ w.2 = cycle.2

instance (w cycle : Nat × UInt8) : Decidable (IsCycle w cycle) :=
  inferInstanceAs (Decidable (_ ∧ _))

/-- The cycles that open the command that programs a value. -/
def programOpening : List (Nat × UInt8) := [(0x5555, 0xAA), (0x2AAA, 0x55), (0x5555, 0xA0)]

/-- The cycles that open the commands that erase. -/
def eraseOpening : List (Nat × UInt8) :=
  [(0x5555, 0xAA), (0x2AAA, 0x55), (0x5555, 0x80), (0x5555, 0xAA), (0x2AAA, 0x55)]

/-- The last cycle of the command that erases the chip. -/
def chipErase : Nat × UInt8 := (0x5555, 0x10)

namespace Decoder

/-- The cycles that lead the decoder from plain reading to a state. -/
def trail : Decoder → List (Nat × UInt8)
  | .read => []
  | .unlocked1 => programOpening.take 1
  | .unlocked2 => programOpening.take 2
  | .program => programOpening
  | .eraseSetup => eraseOpening.take 3
  | .eraseUnlocked1 => eraseOpening.take 4
  | .eraseUnlocked2 => eraseOpening

/-- What a write has to be for what it means: the next cycle of a command, or the last one. -/
def Meant (s : Decoder) (o : Nat) (v : UInt8) : Cycle → Prop
  | .follow next => ∃ cycle, next.trail = s.trail ++ [cycle] ∧ IsCycle (o, v) cycle
  | .program => s = .program
  | .eraseChip => s = .eraseUnlocked2 ∧ IsCycle (o, v) chipErase
  | .eraseSector => s = .eraseUnlocked2 ∧ v = 0x30
  | .enterIdentity => s = .unlocked2
  | .leaveIdentity | .ignore => True

section Meant

variable {s : Decoder} {o : Nat} {v : UInt8}

theorem Meant.ite {p : Prop} [Decidable p] {x y : Cycle} (hx : p → s.Meant o v x)
    (hy : s.Meant o v y) : s.Meant o v (if p then x else y) := by
  by_cases hp : p
  · rw [if_pos hp]
    exact hx hp
  · rw [if_neg hp]
    exact hy

theorem meant_otherwise : s.Meant o v (decode.otherwise v) :=
  Meant.ite (fun _ => trivial) trivial

/-- **A write means what the history calls for**, one case for each state. -/
theorem meant_decode (s : Decoder) (o : Nat) (v : UInt8) : s.Meant o v (s.decode o v) := by
  cases s with
  | read => exact .ite (fun h => ⟨_, rfl, h⟩) meant_otherwise
  | unlocked1 => exact .ite (fun h => ⟨_, rfl, h⟩) meant_otherwise
  | unlocked2 =>
    exact .ite (fun h => ⟨_, rfl, h⟩) (.ite (fun h => ⟨_, rfl, h⟩) (.ite (fun _ => rfl)
      meant_otherwise))
  | program => exact rfl
  | eraseSetup => exact .ite (fun h => ⟨_, rfl, h⟩) meant_otherwise
  | eraseUnlocked1 => exact .ite (fun h => ⟨_, rfl, h⟩) meant_otherwise
  | eraseUnlocked2 =>
    exact .ite (fun h => ⟨rfl, h⟩) (.ite (fun h => ⟨rfl, h⟩) meant_otherwise)

end Meant

end Decoder

theorem Chip.writes_append (c : Chip) (ws vs : List (Nat × UInt8)) :
    c.writes (ws ++ vs) = (c.writes ws).writes vs :=
  List.foldl_append

theorem Chip.writes_concat (c : Chip) (ws : List (Nat × UInt8)) (w : Nat × UInt8) :
    c.writes (ws ++ [w]) = (c.writes ws).write w.1 w.2 :=
  c.writes_append ws [w]

namespace Decoder

/-- The cycles of the state's trail lead to it from plain reading. -/
def Reached (s : Decoder) : Prop :=
  ∀ (c : Chip) (last : List (Nat × UInt8)), c.state = .read → List.Forall₂ IsCycle last s.trail →
    (c.writes last).state = s

theorem Reached.follow {s next : Decoder} (hs : s.Reached) {cycle : Nat × UInt8}
    (htrail : next.trail = s.trail ++ [cycle])
    (hfollow : ∀ o v, IsCycle (o, v) cycle → s.decode o v = .follow next) : next.Reached := by
  intro c last hc hlast
  rw [htrail] at hlast
  have hbefore := List.forall₂_take_append last s.trail [cycle] hlast
  have hw := List.forall₂_drop_append last s.trail [cycle] hlast
  obtain ⟨w, rest, hcycle, hrest, hdrop⟩ := List.forall₂_cons_right_iff.mp hw
  obtain rfl := List.forall₂_nil_right_iff.mp hrest
  have hstate := hs c _ hc hbefore
  rw [← List.take_append_drop s.trail.length last, hdrop, Chip.writes_concat,
    Chip.write_of_follow (hstate.symm ▸ hfollow w.1 w.2 hcycle)]

/-- Every state is reached by the cycles of its trail. -/
theorem reached (s : Decoder) : s.Reached := by
  have hread : Reached .read := by
    intro c last hc hlast
    obtain rfl := List.forall₂_nil_right_iff.mp hlast
    exact hc
  have hunlocked1 : Reached .unlocked1 := hread.follow rfl fun o v h => if_pos h
  have hunlocked2 : Reached .unlocked2 := hunlocked1.follow rfl fun o v h => if_pos h
  have hprogram : Reached .program := hunlocked2.follow rfl fun o v h => if_pos h
  have herase : ∀ o v, IsCycle (o, v) (0x5555, 0x80) →
      Decoder.unlocked2.decode o v = .follow .eraseSetup := by
    rintro o v ⟨hplace, hvalue⟩
    obtain rfl : v = 0x80 := hvalue
    have ho : o % 0x8000 = 0x5555 := hplace
    simp [decode, ho, unlockFirst]
  have heraseSetup : Reached .eraseSetup := hunlocked2.follow rfl herase
  have heraseUnlocked1 : Reached .eraseUnlocked1 := heraseSetup.follow rfl fun o v h => if_pos h
  have heraseUnlocked2 : Reached .eraseUnlocked2 :=
    heraseUnlocked1.follow rfl fun o v h => if_pos h
  cases s with
  | read => exact hread
  | unlocked1 => exact hunlocked1
  | unlocked2 => exact hunlocked2
  | program => exact hprogram
  | eraseSetup => exact heraseSetup
  | eraseUnlocked1 => exact heraseUnlocked1
  | eraseUnlocked2 => exact heraseUnlocked2

end Decoder

namespace Chip

/-- The last writes are certain cycles, and no command was followed when the first of them came. -/
def Opened (c : Chip) (ws cycles : List (Nat × UInt8)) : Prop :=
  ∃ before last, ws = before ++ last ∧ List.Forall₂ IsCycle last cycles ∧
    (c.writes before).state = .read

/-- A write carries a command on, or ends it. -/
theorem state_write (c : Chip) (o : Nat) (v : UInt8) :
    c.state.decode o v = .follow (c.write o v).state ∨ (c.write o v).state = .read := by
  cases h : c.state.decode o v with
  | follow next => exact .inl (by rw [write_of_follow h])
  | _ =>
    refine .inr ?_
    simp only [write, h]

/-- **The state of the chip is the end of its history**: it is the one that the last writes lead to
from plain reading. -/
theorem state_writes_iff {c : Chip} (hstate : c.state = .read) (ws : List (Nat × UInt8))
    (s : Decoder) : (c.writes ws).state = s ↔ c.Opened ws s.trail := by
  constructor
  · rintro rfl
    -- no trail is as good as any to plain reading
    have hclosed : ∀ vs, (c.writes vs).state = .read → c.Opened vs (c.writes vs).state.trail := by
      intro vs hread
      refine ⟨vs, [], (List.append_nil _).symm, ?_, hread⟩
      rw [hread]
      exact .nil
    induction ws using List.reverseRecOn with
    | nil => exact hclosed [] hstate
    | append_singleton ws w ih =>
      rcases (c.writes ws).state_write w.1 w.2 with hfollow | hread
      · -- the command goes on, and so does its trail
        have hmeant := (c.writes ws).state.meant_decode w.1 w.2
        rw [hfollow] at hmeant
        obtain ⟨cycle, htrail, hcycle⟩ := hmeant
        obtain ⟨before, last, rfl, hlast, hbefore⟩ := ih
        refine ⟨before, last ++ [w], List.append_assoc .., ?_, hbefore⟩
        rw [writes_concat, htrail]
        exact List.rel_append hlast (.cons hcycle .nil)
      · rw [← writes_concat] at hread
        exact hclosed _ hread
  · rintro ⟨before, last, rfl, hlast, hbefore⟩
    rw [writes_append]
    exact s.reached _ _ hbefore hlast

end Chip

/-! ## Writes that check -/

/-- The bytes from one index up to another replaced, if they are there. -/
def fillSlice (data : Array UInt8) (first last : Nat) (v : UInt8) : Option (Array UInt8) :=
  if first ≤ last ∧ last ≤ data.size then
    some (data.extract 0 first ++ Array.replicate (last - first) v ++ data.extract last data.size)
  else none

theorem fillSlice_eq {data : Array UInt8} {first last : Nat} (hfirst : first ≤ last)
    (hlast : last ≤ data.size) :
    fillSlice data first last erased
      = some (data.mapIdx fun i b => if first ≤ i ∧ i < last then erased else b) := by
  rw [fillSlice, if_pos ⟨hfirst, hlast⟩]
  refine congrArg some (Array.ext_getElem? fun i => ?_)
  have hhead : (data.extract 0 first).size = first := by
    rw [Array.size_extract]
    omega
  have hmid : (data.extract 0 first ++ Array.replicate (last - first) erased).size = last := by
    rw [Array.size_append, hhead, Array.size_replicate]
    omega
  rw [Array.getElem?_mapIdx, Array.getElem?_append, hmid]
  -- byte by byte: before the slice, in it, and after it
  by_cases hright : i < last
  · rw [if_pos hright, Array.getElem?_append, hhead,
      Array.getElem?_eq_getElem (show i < data.size by omega)]
    by_cases hleft : i < first
    · rw [if_pos hleft, Array.getElem?_extract, if_pos (by omega)]
      simp [show ¬ first ≤ i by omega]
    · rw [if_neg hleft, Array.getElem?_replicate, if_pos (by omega)]
      simp [show first ≤ i by omega, hright]
  · have hplace : last + (i - last) = i := by omega
    rw [if_neg hright, Array.getElem?_extract, Nat.min_self, hplace]
    by_cases hin : i < data.size
    · rw [if_pos (by omega), Array.getElem?_eq_getElem hin]
      simp [hright]
    · rw [if_neg (by omega), Array.getElem?_eq_none (by omega)]
      rfl

namespace Chip

/-- Other contents of the same length, and no command followed. -/
def renewed (c : Chip) (data : Array UInt8) : Option Chip :=
  if h : data.size = c.part.size then some { c with data, size_data := h, state := .read } else none

/-- A write that changes a byte only where there is one, takes a sector only where there is one, and
divides by no zero. -/
def writeChecked (c : Chip) (o : Nat) (v : UInt8) : Option Chip :=
  match c.state.decode o v with
  | .program => do
    let b ← c.data[o]?
    c.renewed (c.data.setIfInBounds o (b &&& v))
  | .eraseChip => c.renewed (Array.replicate c.data.size erased)
  | .eraseSector =>
    if c.part.sector = 0 then none
    else do
      let start := o - o % c.part.sector
      let data ← fillSlice c.data start (start + c.part.sector) erased
      c.renewed data
  | _ => some (c.write o v)

/-- Writes that check, first to last. -/
def writesChecked (c : Chip) (ws : List (Nat × UInt8)) : Option Chip :=
  ws.foldlM (fun c w => c.writeChecked w.1 w.2) c

theorem renewed_eq (c : Chip) {data : Array UInt8} (h : data.size = c.part.size) :
    c.renewed data = some { c with data, size_data := h, state := .read } :=
  dif_pos h

/-- The sector around an offset is inside a chip that has the offset. -/
theorem sector_le {n size o : Nat} (hdvd : n ∣ size) (ho : o < size) : o - o % n + n ≤ size := by
  obtain ⟨k, rfl⟩ := hdvd
  have hsector : o / n < k := Nat.div_lt_of_lt_mul ho
  have hstart : o - o % n = n * (o / n) := by
    have := Nat.div_add_mod o n
    omega
  rw [hstart, ← Nat.mul_succ]
  exact Nat.mul_le_mul_left n hsector

section

variable {c : Chip} (hsector : 0 < c.part.sector) (hdvd : c.part.sector ∣ c.part.size)
include hsector hdvd

/-- **No check fails** in a write at an offset of the chip. -/
theorem writeChecked_eq {o : Nat} (ho : o < c.part.size) (v : UInt8) :
    c.writeChecked o v = some (c.write o v) := by
  unfold writeChecked
  cases h : c.state.decode o v with
  | program =>
    have hdata : o < c.data.size := c.size_data ▸ ho
    have hmodify : c.data.setIfInBounds o (c.data[o] &&& v) = c.data.modify o (· &&& v) := by
      grind
    rw [Array.getElem?_eq_getElem hdata]
    show c.renewed (c.data.setIfInBounds o (c.data[o] &&& v)) = _
    rw [hmodify, renewed_eq c (Array.size_modify.trans c.size_data)]
    simp only [write, h]
  | eraseChip =>
    show c.renewed (Array.replicate c.data.size erased) = _
    rw [renewed_eq c (Array.size_replicate.trans c.size_data)]
    simp only [write, h]
  | eraseSector =>
    have hle := sector_le hdvd ho
    rw [← c.size_data] at hle
    dsimp only
    rw [if_neg (Nat.ne_of_gt hsector), fillSlice_eq (Nat.le_add_right ..) hle]
    show c.renewed (c.data.mapIdx _) = _
    rw [renewed_eq c (Array.size_mapIdx.trans c.size_data)]
    simp only [write, h]
  | follow next => rfl
  | enterIdentity => rfl
  | leaveIdentity => rfl
  | ignore => rfl

/-- No check fails in any number of them. -/
theorem writesChecked_eq {ws : List (Nat × UInt8)} (hws : ∀ w ∈ ws, w.1 < c.part.size) :
    c.writesChecked ws = some (c.writes ws) := by
  induction ws generalizing c with
  | nil => rfl
  | cons w ws ih =>
    obtain ⟨hw, hrest⟩ := List.forall_mem_cons.mp hws
    rw [writesChecked, List.foldlM_cons, writeChecked_eq hsector hdvd hw]
    exact ih (by rwa [write_part]) (by rwa [write_part]) (by rwa [write_part])

end

/-! ## What a write does to the contents -/

theorem writes_part (c : Chip) (ws : List (Nat × UInt8)) : (c.writes ws).part = c.part := by
  induction ws generalizing c with
  | nil => rfl
  | cons w ws ih => rw [writes_cons, ih, write_part]

theorem write_of_program {c : Chip} (hstate : c.state = .program) (o : Nat) (v : UInt8) :
    c.write o v = c.programmed o v := by
  have hdecode : c.state.decode o v = .program := by
    rw [hstate]
    rfl
  simp only [write, hdecode]
  rfl

theorem write_of_chipErase {c : Chip} (hstate : c.state = .eraseUnlocked2) {o : Nat} {v : UInt8}
    (hcycle : IsCycle (o, v) chipErase) : c.write o v = c.wiped := by
  have hdecode : c.state.decode o v = .eraseChip := by
    rw [hstate]
    exact if_pos hcycle
  simp only [write, hdecode]
  rfl

/-- A write that is the last of no command leaves the contents alone. -/
theorem data_write_of_ne {c : Chip} {o : Nat} {v : UInt8} (hprogram : c.state ≠ .program)
    (herase : c.state = .eraseUnlocked2 → ¬ IsCycle (o, v) chipErase ∧ v ≠ 0x30) :
    (c.write o v).data = c.data := by
  have hmeant := c.state.meant_decode o v
  cases h : c.state.decode o v with
  | program =>
    rw [h] at hmeant
    exact absurd hmeant hprogram
  | eraseChip =>
    rw [h] at hmeant
    exact absurd hmeant.2 (herase hmeant.1).1
  | eraseSector =>
    rw [h] at hmeant
    exact absurd hmeant.2 (herase hmeant.1).2
  | follow next => rw [write_of_follow h]
  | enterIdentity => simp only [write, h]
  | leaveIdentity => simp only [write, h]
  | ignore => simp only [write, h]

/-- **What a write does to the contents**, by the writes before it.  After writes at offsets of the
chip, from plain reading, one more write fails no check and keeps the length.

* After the cycles that open programming it clears bits of the byte at its offset.
* After those that open erasing it erases everything if it is the cycle for that,
* and exactly the sector around its offset if it is the value for that.
* Any other write leaves the contents as they were. -/
theorem writes_by_history (c : Chip) (hsector : 0 < c.part.sector)
    (hdvd : c.part.sector ∣ c.part.size) (hstate : c.state = .read) (ws : List (Nat × UInt8))
    (o : Nat) (v : UInt8) (hws : ∀ w ∈ ws ++ [(o, v)], w.1 < c.part.size) :
    c.writesChecked ws = some (c.writes ws) ∧
    c.writesChecked (ws ++ [(o, v)]) = some ((c.writes ws).write o v) ∧
    ((c.writes ws).write o v).data.size = c.part.size ∧
    (c.Opened ws programOpening →
      ((c.writes ws).write o v).data = (c.writes ws).data.modify o (· &&& v)) ∧
    (c.Opened ws eraseOpening → IsCycle (o, v) chipErase →
      ((c.writes ws).write o v).data = Array.replicate c.part.size 0xFF) ∧
    (c.Opened ws eraseOpening → v = 0x30 → ∀ i, ((c.writes ws).write o v).data[i]?
      = (c.writes ws).data[i]?.map fun b =>
        if i / c.part.sector = o / c.part.sector then 0xFF else b) ∧
    (¬ c.Opened ws programOpening →
      ¬ (c.Opened ws eraseOpening ∧ (IsCycle (o, v) chipErase ∨ v = 0x30)) →
      ((c.writes ws).write o v).data = (c.writes ws).data) := by
  have hprogram := state_writes_iff hstate ws .program
  have herase := state_writes_iff hstate ws .eraseUnlocked2
  have hpart := c.writes_part ws
  refine ⟨writesChecked_eq hsector hdvd fun w hw => hws w (List.mem_append_left _ hw),
    ?_, ?_, fun h => ?_, fun h hcycle => ?_, fun h hvalue i => ?_, fun hp he => ?_⟩
  · rw [writesChecked_eq hsector hdvd hws, writes_concat]
  · rw [((c.writes ws).write o v).size_data, write_part, hpart]
  · rw [write_of_program (hprogram.mpr h)]
    rfl
  · rw [write_of_chipErase (herase.mpr h) hcycle]
    show Array.replicate (c.writes ws).data.size 0xFF = _
    rw [(c.writes ws).size_data, hpart]
  · have hwiped := data_sectorWiped (c := c.writes ws) (hpart ▸ hsector) o i
    rw [hpart] at hwiped
    rw [hvalue, write_sector (herase.mpr h)]
    exact hwiped
  · refine data_write_of_ne (fun h => hp (hprogram.mp h)) fun h => ?_
    have hnone : ¬ (IsCycle (o, v) chipErase ∨ v = 0x30) := fun hlast => he ⟨herase.mp h, hlast⟩
    exact not_or.mp hnone

/-- On an erased chip a value is programmed once the command for that is open, and the same value
once more changes nothing. -/
theorem writes_by_history_twice :
    let c := blank {}
    let ws := programOpening.map fun cycle => (cycle.1 + 0x8000, cycle.2)
    c.writesChecked (ws ++ [(0x12345, 0x42)]) = some ((c.writes ws).write 0x12345 0x42) ∧
    ((c.writes ws).write 0x12345 0x42).data = (c.writes ws).data.modify 0x12345 (· &&& 0x42) ∧
    ((c.writes (ws ++ [(0x12345, 0x42)])).write 0x12345 0x42).data
      = (c.writes (ws ++ [(0x12345, 0x42)])).data := by
  intro c ws
  have hcycles : List.Forall₂ IsCycle ws programOpening :=
    .cons ⟨rfl, rfl⟩ (.cons ⟨rfl, rfl⟩ (.cons ⟨rfl, rfl⟩ .nil))
  have hopened : c.Opened ws programOpening := ⟨[], ws, rfl, hcycles, rfl⟩
  -- the value that was programmed has ended the command, whichever cycles are looked for
  have hended : ∀ {s : Decoder}, s ≠ .read → ¬ c.Opened (ws ++ [(0x12345, 0x42)]) s.trail := by
    intro s hs h
    have hprogram : (c.writes ws).state = .program := (state_writes_iff rfl ws .program).mpr hopened
    have hstate := (state_writes_iff rfl _ s).mpr h
    rw [writes_concat, write_of_program hprogram] at hstate
    exact hs hstate.symm
  obtain ⟨-, hchecked, -, hprogrammed, -⟩ :=
    c.writes_by_history (by decide) (by decide) rfl ws 0x12345 0x42 (by decide)
  obtain ⟨-, -, -, -, -, -, hkept⟩ :=
    c.writes_by_history (by decide) (by decide) rfl (ws ++ [(0x12345, 0x42)]) 0x12345 0x42
      (by decide)
  refine ⟨hchecked, hprogrammed hopened, hkept ?_ ?_⟩
  · exact hended (s := .program) (by decide)
  · rintro ⟨h, -⟩
    exact hended (s := .eraseUnlocked2) (by decide) h

end Chip

end BoardConsole.Monitor
