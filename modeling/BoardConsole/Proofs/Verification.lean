import BoardConsole.Proofs.Transfer

/-!
# Verification is exact

Comparing an object file with memory asks the board for one byte at a time and stops at the first
that differs.  On a board that has no other reply waiting, each answer is the byte asked for, so
the verdict says exactly whether memory holds the file, and what went over the wire is the
beginning of the whole comparison up to the request that failed.

- `Monitor.Mismatch`: the first cell of a list that memory does not hold.
- `Purpose.scan`: the bytes that comparing a whole file sends, and `UpToRequest`, a beginning of
  them that ends with a certain request.
- `Purpose.run_bytes_compares`, `run_segments_compares`: **either everything agrees and is asked
  for, or the first mismatch is the last request**.
- `verify_exact`: the verdict of a verify command, on both images.
-/

namespace BoardConsole

open ObjectFile (Segment addressSpace)

/-! ## What memory holds -/

namespace Monitor

/-- The board answers with the byte of the cell at the cell's address. -/
def Holds (m : Monitor) (cell : Nat × UInt8) : Prop := m.load (cell.1 % space) = cell.2

instance (m : Monitor) (cell : Nat × UInt8) : Decidable (m.Holds cell) :=
  inferInstanceAs (Decidable (_ = _))

/-- The cells before an address hold, and the first one that does not is at the address. -/
def Mismatch (m : Monitor) (cells before : List (Nat × UInt8)) (a : Nat) : Prop :=
  ∃ b after, cells = before ++ (a, b) :: after ∧ (∀ cell ∈ before, m.Holds cell) ∧
    ¬ m.Holds (a, b)

theorem Mismatch.head {m : Monitor} {cell : Nat × UInt8} (h : ¬ m.Holds cell)
    (cells : List (Nat × UInt8)) : m.Mismatch (cell :: cells) [] cell.1 :=
  ⟨cell.2, cells, rfl, fun _ hcell => (nomatch hcell), h⟩

theorem Mismatch.append_right {m : Monitor} {cells before : List (Nat × UInt8)} {a : Nat}
    (h : m.Mismatch cells before a) (rest : List (Nat × UInt8)) :
    m.Mismatch (cells ++ rest) before a := by
  obtain ⟨b, after, rfl, hbefore, hb⟩ := h
  exact ⟨b, after ++ rest, by rw [List.append_assoc, List.cons_append], hbefore, hb⟩

theorem Mismatch.cons {m : Monitor} {cells before : List (Nat × UInt8)} {a : Nat}
    (h : m.Mismatch cells before a) {cell : Nat × UInt8} (hcell : m.Holds cell) :
    m.Mismatch (cell :: cells) (cell :: before) a := by
  obtain ⟨b, after, rfl, hbefore, hb⟩ := h
  exact ⟨b, after, rfl, List.forall_mem_cons.mpr ⟨hcell, hbefore⟩, hb⟩

theorem Mismatch.append_left {m : Monitor} {cells before : List (Nat × UInt8)} {a : Nat}
    (h : m.Mismatch cells before a) {front : List (Nat × UInt8)}
    (hfront : ∀ cell ∈ front, m.Holds cell) : m.Mismatch (front ++ cells) (front ++ before) a := by
  obtain ⟨b, after, rfl, hbefore, hb⟩ := h
  refine ⟨b, after, (List.append_assoc ..).symm, fun cell hcell => ?_, hb⟩
  exact (List.mem_append.mp hcell).elim (hfront cell) (hbefore cell)

/-- A mismatch is one. -/
theorem Mismatch.not_forall {m : Monitor} {cells before : List (Nat × UInt8)} {a : Nat}
    (h : m.Mismatch cells before a) : ¬ ∀ cell ∈ cells, m.Holds cell := by
  obtain ⟨b, after, rfl, -, hb⟩ := h
  intro hall
  exact hb (hall _ (List.mem_append_right _ (List.mem_cons_self ..)))

end Monitor

namespace Debugger

open Monitor (space)
open Procedure

/-! ## Requests on the wire -/

/-- The byte that asks for a byte of memory. -/
def request : UInt8 := 0x40

/-- A beginning of some bytes that ends with their request of a certain number. -/
structure UpToRequest (sent whole : Bytes) (count : Nat) : Prop where
  isPrefix : sent <+: whole
  last : sent.getLast? = some request
  requests : sent.count request = count

theorem UpToRequest.append_left {sent whole front : Bytes} {n k : Nat}
    (h : UpToRequest sent whole n) (hfront : front.count request = k) :
    UpToRequest (front ++ sent) (front ++ whole) (k + n) := by
  refine ⟨(List.prefix_append_right_inj front).mpr h.isPrefix, ?_, ?_⟩
  · rw [List.getLast?_append, h.last]
    rfl
  · rw [List.count_append, hfront, h.requests]

theorem UpToRequest.append_right {sent whole : Bytes} {n : Nat} (h : UpToRequest sent whole n)
    (rest : Bytes) : UpToRequest sent (whole ++ rest) n :=
  ⟨h.isPrefix.trans (List.prefix_append ..), h.last, h.requests⟩

/-- The first request is one. -/
theorem upToRequest_first (rest : Bytes) : UpToRequest [request] ([request] ++ rest) 1 :=
  ⟨List.prefix_append .., rfl, rfl⟩

/-- No number asks for anything. -/
theorem count_request_digits (value n : Nat) :
    (Utf8.encode (Hex.digits value n)).count request = 0 := by
  induction n generalizing value with
  | zero => rfl
  | succ n ih =>
    have hdigit : ∀ d < 16, (Utf8.encode [Hex.digit d]).count request = 0 := by decide
    rw [Hex.digits_succ, Utf8.encode_append, List.count_append, ih,
      hdigit _ (Nat.mod_lt _ (by decide))]

namespace Purpose

theorem count_request_pointFrame (p : Purpose) (a : Nat) :
    (p.pointFrame a).count request = 0 := by
  have hcolon : (Utf8.encode [':']).count request = 0 := by decide
  have hhash : (Utf8.encode ['#']).count request = 0 := by decide
  have hbank : ∀ k, (bankFrame k).count request = 0 := fun k => by
    rw [bankFrame, List.count_append, count_request_digits, hcolon]
  have haddress : (addressFrame a).count request = 0 := by
    rw [addressFrame, offsetFrame, List.count_append, List.count_append, hbank,
      count_request_digits, hhash]
  cases p with
  | flash => exact hbank _
  | program => exact haddress
  | verify => exact haddress
  | verifyRom => exact haddress

theorem count_request_aimFrame (p : Purpose) (base index : Nat) :
    (p.aimFrame base index).count request = 0 := by
  rw [aimFrame]
  split
  · exact p.count_request_pointFrame _
  · rfl

/-- The bytes that comparing bytes sends, from one on. -/
def scanBytes (p : Purpose) (base : Nat) : Nat → Bytes → Bytes
  | _, [] => []
  | index, _ :: rest => p.aimFrame base index ++ ([request] ++ p.scanBytes base (index + 1) rest)

/-- The bytes that comparing a segment sends. -/
def scanSegment (p : Purpose) (s : Segment) : Bytes :=
  p.pointFrame (p.address s) ++ p.scanBytes (p.address s) 0 s.data

/-- The bytes that comparing a whole file sends. -/
def scan (p : Purpose) (segments : List Segment) : Bytes :=
  Utf8.encode [']', 'R'] ++ segments.flatMap p.scanSegment

/-- Every byte is asked for once. -/
theorem count_request_scanBytes (p : Purpose) (base index : Nat) (data : Bytes) :
    (p.scanBytes base index data).count request = data.length := by
  induction data generalizing index with
  | nil => rfl
  | cons b rest ih =>
    rw [scanBytes, List.count_append, List.count_append, count_request_aimFrame, ih,
      List.length_cons, Nat.zero_add, Nat.add_comm]
    rfl

/-! ## Comparing -/

/-- What is said about a byte that differs. -/
def failure (a : Nat) : Entry := .line s!"Validation failed at {Hex.lower a 8}!"

/-- One byte compared: asked for at the pointer, and called off if it differs. -/
theorem run_check {m : Monitor} (hreplies : m.replies = []) {c a : Nat}
    (hc : c % space = a % space) (b : UInt8) :
    run (check a b) (m.pointAt c)
      = if m.Holds (a, b)
        then ⟨.onward, m.pointAt (m.advance.next (a % space)), [], [request]⟩
        else ⟨.abort, m.pointAt (m.advance.next (a % space)), [failure a], [request]⟩ := by
  have hfetch := run_fetchByte (m.pointAt c) hreplies
  rw [Monitor.pointAt_pointer, hc, Monitor.pointAt_load, Monitor.pointAt_pointAt,
    Monitor.pointAt_advance] at hfetch
  by_cases hb : m.Holds (a, b)
  · have hload : m.load (a % space) = b := hb
    rw [if_pos hb, check, run_bind, hfetch]
    dsimp only [Run.andThen]
    rw [if_pos hload]
    rfl
  · have hload : ¬ m.load (a % space) = b := hb
    rw [if_neg hb, check, run_bind, hfetch]
    dsimp only [Run.andThen]
    rw [if_neg hload]
    rfl

theorem run_proceed_abort (next : Procedure Flow) (m : Monitor) :
    run (proceed next .abort) m = ⟨.abort, m, [], []⟩ := rfl

theorem run_conclude_abort (p : Purpose) (m : Monitor) :
    run (p.conclude .abort) m = ⟨(), m, [], []⟩ := rfl

theorem byte_of_compares {p : Purpose} (hp : p.compares = true) (a : Nat) (b : UInt8) :
    p.byte a b = check a b := by
  cases p with
  | program => cases hp
  | flash => cases hp
  | verify => rfl
  | verifyRom => rfl

theorem completion_of_compares {p : Purpose} (hp : p.compares = true) :
    p.completion = "Verify complete!" := by
  cases p with
  | program => cases hp
  | flash => cases hp
  | verify => rfl
  | verifyRom => rfl

theorem aimed_of_compares {p : Purpose} (hp : p.compares = true) (c a : Nat) :
    p.Aimed c a ↔ c % space = a % space := by
  cases p with
  | program => cases hp
  | flash => cases hp
  | verify => rfl
  | verifyRom => rfl

/-- **Bytes compared**, by induction on what is left of them: all agree and all are asked for, or
the first mismatch is the last request. -/
theorem run_bytes_compares {p : Purpose} (hp : p.compares = true) {m : Monitor}
    (hreplies : m.replies = []) (base total : Nat) (data : Bytes) (index : Nat) {c : Nat}
    (h : p.Ready base index c) :
    ((∀ cell ∈ cellsFrom (base + index) data, m.Holds cell) ∧ ∃ c' told,
      run (p.bytes base total index data) (m.pointAt c)
        = ⟨.onward, m.pointAt c', told, p.scanBytes base index data⟩) ∨
    (∃ before a, m.Mismatch (cellsFrom (base + index) data) before a ∧ ∃ c' told sent,
      run (p.bytes base total index data) (m.pointAt c)
        = ⟨.abort, m.pointAt c', told ++ [failure a], sent⟩ ∧
      UpToRequest sent (p.scanBytes base index data) (before.length + 1)) := by
  induction data generalizing index c with
  | nil => exact .inl ⟨fun _ hcell => (nomatch hcell), c, [], rfl⟩
  | cons b rest ih =>
    have hmod := mod_addressSpace (base + index)
    obtain ⟨told₁, h₁⟩ := p.run_report index total (m.pointAt c)
    obtain ⟨c₂, h₂, haimed⟩ := p.run_aim h m
    have h₃ := run_check hreplies (a := (base + index) % addressSpace)
      (((aimed_of_compares hp _ _).mp haimed).trans hmod.symm) b
    rw [← byte_of_compares hp] at h₃
    rw [bytes_cons, cellsFrom_cons, scanBytes]
    by_cases hb : m.Holds ((base + index) % addressSpace, b)
    · -- one request is behind us, whatever becomes of the rest
      rw [if_pos hb] at h₃
      have hready : p.Ready base (index + 1)
          (m.advance.next ((base + index) % addressSpace % space)) := by
        refine ready_of_next fun hbank => (aimed_of_compares hp _ _).mpr ?_
        rw [hmod, m.advance.next_mod hbank, Nat.mod_mod]
      have hcount : (p.aimFrame base index ++ [request]).count request = 1 := by
        rw [List.count_append, count_request_aimFrame]
        rfl
      rcases ih (index + 1) hready with ⟨hall, c₄, told₄, h₄⟩ |
          ⟨before, a, hmis, c₄, told₄, sent₄, h₄, hup⟩
      · refine .inl ⟨List.forall_mem_cons.mpr ⟨hb, hall⟩, c₄, told₁ ++ told₄, ?_⟩
        exact (run_bind_of h₁ (run_bind_of h₂ (run_bind_of h₃ h₄))).trans rfl
      · refine .inr ⟨_ :: before, a, hmis.cons hb, c₄, told₁ ++ told₄,
          p.aimFrame base index ++ ([request] ++ sent₄), ?_, ?_⟩
        · rw [List.append_assoc]
          exact (run_bind_of h₁ (run_bind_of h₂ (run_bind_of h₃ h₄))).trans rfl
        · rw [← List.append_assoc, ← List.append_assoc, List.length_cons,
            Nat.add_comm (before.length + 1) 1]
          exact hup.append_left hcount
    · rw [if_neg hb] at h₃
      refine .inr ⟨[], (base + index) % addressSpace, .head hb _,
        m.advance.next ((base + index) % addressSpace % space), told₁,
        p.aimFrame base index ++ [request], ?_, ?_⟩
      · exact (run_bind_of h₁ (run_bind_of h₂ (run_bind_of h₃ (run_proceed_abort ..)))).trans rfl
      · exact (upToRequest_first _).append_left (p.count_request_aimFrame base index)

theorem run_segment_compares {p : Purpose} (hp : p.compares = true) {m : Monitor}
    (hreplies : m.replies = []) (s : Segment) (c : Nat) :
    ((∀ cell ∈ cellsFrom (p.address s) s.data, m.Holds cell) ∧ ∃ c' told,
      run (p.segment s) (m.pointAt c) = ⟨.onward, m.pointAt c', told, p.scanSegment s⟩) ∨
    (∃ before a, m.Mismatch (cellsFrom (p.address s) s.data) before a ∧ ∃ c' told sent,
      run (p.segment s) (m.pointAt c) = ⟨.abort, m.pointAt c', told ++ [failure a], sent⟩ ∧
      UpToRequest sent (p.scanSegment s) (before.length + 1)) := by
  obtain ⟨c₁, h₁, haimed⟩ := p.run_point (p.address s) (m.pointAt c)
  rcases run_bytes_compares hp hreplies (p.address s) s.data.length s.data 0 (c := c₁)
      (.inr haimed) with ⟨hall, c₂, told₂, h₂⟩ | ⟨before, a, hmis, c₂, told₂, sent₂, h₂, hup⟩
  · exact .inl ⟨hall, c₂, told₂, (run_bind_of h₁ h₂).trans rfl⟩
  · refine .inr ⟨before, a, hmis, c₂, told₂, p.pointFrame (p.address s) ++ sent₂,
      (run_bind_of h₁ h₂).trans rfl, ?_⟩
    rw [← Nat.zero_add (before.length + 1)]
    exact hup.append_left (p.count_request_pointFrame _)

theorem count_request_scanSegment (p : Purpose) (s : Segment) :
    (p.scanSegment s).count request = (cellsFrom (p.address s) s.data).length := by
  rw [scanSegment, List.count_append, count_request_pointFrame, count_request_scanBytes,
    Nat.zero_add, cellsFrom, List.length_mapIdx]

/-- **Segments compared**: the first mismatch of all puts an end to everything. -/
theorem run_segments_compares {p : Purpose} (hp : p.compares = true) {m : Monitor}
    (hreplies : m.replies = []) (segments : List Segment) (number c : Nat) :
    ((∀ cell ∈ p.cells segments, m.Holds cell) ∧ ∃ c' told,
      run (p.segments number segments) (m.pointAt c)
        = ⟨.onward, m.pointAt c', told, segments.flatMap p.scanSegment⟩) ∨
    (∃ before a, m.Mismatch (p.cells segments) before a ∧ ∃ c' told sent,
      run (p.segments number segments) (m.pointAt c)
        = ⟨.abort, m.pointAt c', told ++ [failure a], sent⟩ ∧
      UpToRequest sent (segments.flatMap p.scanSegment) (before.length + 1)) := by
  induction segments generalizing number c with
  | nil => exact .inl ⟨fun _ hcell => (nomatch hcell), c, [], rfl⟩
  | cons s rest ih =>
    have hsay := run_say (p.announcement number s) (m.pointAt c)
    rw [segments_cons, cells_cons, List.flatMap_cons]
    rcases run_segment_compares hp hreplies s c with
      ⟨hseg, c₁, told₁, h₁⟩ | ⟨before, a, hmis, c₁, told₁, sent₁, h₁, hup⟩
    · have hdone := run_say "Segment complete!" (m.pointAt c₁)
      rcases ih (number + 1) c₁ with
        ⟨hrest, c₂, told₂, h₂⟩ | ⟨before, a, hmis, c₂, told₂, sent₂, h₂, hup⟩
      · refine .inl ⟨List.forall_mem_append.mpr ⟨hseg, hrest⟩, c₂,
          .line (p.announcement number s) :: (told₁ ++ .line "Segment complete!" :: told₂), ?_⟩
        exact (run_bind_of hsay (run_bind_of h₁ (run_bind_of hdone h₂))).trans rfl
      · refine .inr ⟨_, a, hmis.append_left hseg, c₂,
          .line (p.announcement number s) :: (told₁ ++ .line "Segment complete!" :: told₂),
          p.scanSegment s ++ sent₂, ?_, ?_⟩
        · rw [List.cons_append, List.append_assoc]
          exact (run_bind_of hsay (run_bind_of h₁ (run_bind_of hdone h₂))).trans rfl
        · rw [List.length_append, Nat.add_assoc]
          exact hup.append_left (p.count_request_scanSegment s)
    · refine .inr ⟨before, a, hmis.append_right _, c₁, .line (p.announcement number s) :: told₁,
        sent₁, ?_, hup.append_right _⟩
      refine (run_bind_of hsay (run_bind_of h₁ (run_proceed_abort ..))).trans ?_
      simp only [List.append_nil, List.nil_append, List.cons_append]

/-! ## Whole files -/

/-- A file compared leaves the memory alone. -/
theorem run_transfer_compares {p : Purpose} (hp : p.compares = true) {m : Monitor}
    (hreplies : m.replies = []) (segments : List Segment) :
    ((∀ cell ∈ p.cells segments, m.Holds cell) ∧ ∃ c told,
      run (p.transfer segments) m
        = ⟨(), m.halted.pointAt c, told ++ [.line "Verify complete!"], p.scan segments⟩) ∨
    (∃ before a, m.Mismatch (p.cells segments) before a ∧ ∃ c told sent,
      run (p.transfer segments) m = ⟨(), m.halted.pointAt c, told ++ [failure a], sent⟩ ∧
      UpToRequest sent (p.scan segments) (before.length + 1)) := by
  obtain ⟨told₁, h₁⟩ : ∃ told, run p.prepare (m.halted.pointAt m.pointer)
      = ⟨(), m.halted.pointAt m.pointer, told, []⟩ := by
    cases p with
    | program => cases hp
    | flash => cases hp
    | verify => exact ⟨[], rfl⟩
    | verifyRom => exact ⟨_, run_say ..⟩
  have hcount : (Utf8.encode [']', 'R']).count request = 0 := by decide
  rw [transfer_eq]
  -- halting the board is not seen by its memory
  rcases run_segments_compares hp (m := m.halted) hreplies segments 0 m.pointer with
    ⟨hall, c, told, h⟩ | ⟨before, a, hmis, c, told, sent, h, hup⟩
  · refine .inl ⟨hall, c, told₁ ++ told, ?_⟩
    rw [← completion_of_compares hp, List.append_assoc]
    refine (run_bind_of (run_halt m) (run_bind_of h₁ (run_bind_of h (run_say ..)))).trans ?_
    simp only [scan, List.append_nil, List.nil_append]
  · refine .inr ⟨before, a, hmis, c, told₁ ++ told, Utf8.encode [']', 'R'] ++ sent, ?_, ?_⟩
    · have hrun := run_bind_of h (run_conclude_abort p _)
      refine (run_bind_of (run_halt m) (run_bind_of h₁ hrun)).trans ?_
      simp only [List.append_nil, List.nil_append, List.append_assoc]
    · rw [scan, ← Nat.zero_add (before.length + 1)]
      exact hup.append_left hcount

/-- A line that begins otherwise is not the line of success. -/
theorem line_ne_complete {text : String} {start : List Char} {n : Nat}
    (h : text.toList.take n = start) (hne : start ≠ "Verify complete!".toList.take n) :
    Entry.line text ≠ .line "Verify complete!" := by
  intro heq
  rw [Entry.line.inj heq] at h
  exact hne h.symm

/-- A failure is no success. -/
theorem failure_ne_complete (a : Nat) : failure a ≠ .line "Verify complete!" := by
  have hstart : (s!"Validation failed at {Hex.lower a 8}!").toList.take 2 = ['V', 'a'] := by
    rw [String.toList_append, String.toList_append]
    rfl
  exact line_ne_complete hstart (by decide)

end Purpose

variable {p : Purpose} {loader : Loader} {words : List String} {file : String}
  {segments : List Segment}

/-- **Verification is exact.**  On a board with no reply waiting, the last line is that of success
if and only if memory holds every byte of the file.  Otherwise it names the first address that
differs, and what has been sent is the beginning of the whole comparison that ends with the request
for that byte.  Memory is left alone and no reply is left waiting. -/
theorem verify_exact (s : Session (Tap Monitor)) (hp : p.compares = true)
    (hwords : Command.parse words = some (.transfer p (some file)))
    (hload : loader.load file = .ok segments) (hreplies : s.link.link.replies = []) :
    ((s.dispatch loader words).transcript.back? = some (.line "Verify complete!") ↔
      ∀ cell ∈ p.cells segments, s.link.link.load (cell.1 % space) = cell.2) ∧
    ((∃ cell ∈ p.cells segments, s.link.link.load (cell.1 % space) ≠ cell.2) →
      ∃ before a b after, p.cells segments = before ++ (a, b) :: after ∧
        (∀ cell ∈ before, s.link.link.load (cell.1 % space) = cell.2) ∧
        s.link.link.load (a % space) ≠ b ∧
        (s.dispatch loader words).transcript.back?
          = some (.line s!"Validation failed at {Hex.lower a 8}!") ∧
        ∃ sent, (s.dispatch loader words).link.sent = s.link.sent ++ sent ∧
          sent <+: p.scan segments ∧ sent.getLast? = some request ∧
          sent.count request = before.length + 1) ∧
    (s.dispatch loader words).link.link.ram = s.link.link.ram ∧
    (s.dispatch loader words).link.link.remap = s.link.link.remap ∧
    (s.dispatch loader words).link.link.chip = s.link.link.chip ∧
    (s.dispatch loader words).link.link.replies = [] := by
  obtain ⟨-, hboard, htranscript, hsent⟩ := s.dispatch_transfer hwords hload
  dsimp only at hboard hsent htranscript
  rcases Purpose.run_transfer_compares hp hreplies segments with
    ⟨hall, c, told, hrun⟩ | ⟨before, a, hmis, c, told, sent, hrun, hup⟩
  · rw [hrun] at hboard htranscript
    rw [hboard]
    refine ⟨iff_of_true (Session.back?_of_told htranscript) hall, ?_, rfl, rfl, rfl, hreplies⟩
    rintro ⟨cell, hcell, hne⟩
    exact absurd (hall cell hcell) hne
  · rw [hrun] at hboard hsent htranscript
    have hlast := Session.back?_of_told htranscript
    rw [hboard]
    refine ⟨iff_of_false ?_ hmis.not_forall, fun _ => ?_, rfl, rfl, rfl, hreplies⟩
    · rw [hlast]
      exact fun h => Purpose.failure_ne_complete a (Option.some.inj h)
    · obtain ⟨b, after, hcells, hbefore, hb⟩ := hmis
      exact ⟨before, a, b, after, hcells, hbefore, hb, hlast, sent, hsent, hup.isPrefix, hup.last,
        hup.requests⟩

/-- The second segment differs in its second byte, and the third is not asked for. -/
theorem verify_exact_second_segment :
    let segments : List Segment := [⟨0xFFFF, [0, 0]⟩, ⟨0x2000, [0, 7, 0]⟩, ⟨0x3000, [0]⟩]
    let after := (⟨⟨{}, #[]⟩, ⟨0⟩, #[], .quiet⟩ : Session (Tap Monitor)).dispatch (.fixed segments)
      ["verify", "a"]
    after.transcript.back? ≠ some (.line "Verify complete!") ∧ after.link.link.replies = [] := by
  intro segments after
  have hwords : Command.parse ["verify", "a"] = some (.transfer .verify (some "a")) := by
    decide +kernel
  have hload : (Loader.fixed segments).load "a" = .ok segments := rfl
  obtain ⟨hiff, -, -, -, -, hreplies⟩ := verify_exact ⟨⟨{}, #[]⟩, ⟨0⟩, #[], .quiet⟩ rfl hwords hload
    rfl
  refine ⟨fun hcomplete => ?_, hreplies⟩
  exact absurd (hiff.mp hcomplete (0x2001, 7) (by decide)) (by decide)

end Debugger

end BoardConsole
