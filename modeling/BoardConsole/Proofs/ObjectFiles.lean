import BoardConsole.Proofs.Transfer
import Mathlib.Data.List.Chain

/-!
# What an object file says

A file is read line by line up to its end record.  Its data records say which byte goes to which
address: the base that the last extended address record before them has set, the offset of the
record, and the place in the record.  The segments say the same, byte for byte and in the order of
the file, in as few runs as there can be.

- `cells`: what the data records say, each by the records before it.
- `place_cells`, `join_cells`: placing and joining records says nothing else.
- `join_separate`: what is joined has been joined wherever it touches.
- `lines_append`: the lines up to a line feed do not depend on what comes after it.
- `segments_cells`: **the segments say what the data records say**, or the file is refused for its
  first bad line, and what follows the end record does not matter.
-/

namespace BoardConsole.ObjectFile

open Debugger.Purpose (cellsFrom cellsFrom_nil)

/-! ## The bytes of records -/

/-- The base that a record sets. -/
def Record.base? : Record → Option Nat
  | .segmentBase segment => some (16 * segment)
  | .linearBase upper => some (65536 * upper)
  | _ => none

/-- The base in force after some records: the last one set, or the one from before. -/
def baseAfter (start : Nat) (rs : List Record) : Nat :=
  (rs.filterMap Record.base?).getLast?.getD start

/-- The bytes of a record with their addresses. -/
def Record.cells (base : Nat) : Record → List (Nat × UInt8)
  | .data offset bytes => cellsFrom (base + offset) bytes
  | _ => []

/-- The bytes of records with their addresses, in the order of the file.  The base of each record
is set by the records before it. -/
def cells (start : Nat) (rs : List Record) : List (Nat × UInt8) :=
  rs.zipIdx.flatMap fun r => r.1.cells (baseAfter start (rs.take r.2))

/-- The bytes of a segment with their addresses. -/
def Segment.cells (s : Segment) : List (Nat × UInt8) := cellsFrom s.address s.data

theorem cellsFrom_mod (base : Nat) (data : Bytes) :
    cellsFrom (base % addressSpace) data = cellsFrom base data := by
  simp only [cellsFrom, Nat.mod_add_mod]

theorem cellsFrom_append (base : Nat) (data more : Bytes) :
    cellsFrom base (data ++ more) = cellsFrom base data ++ cellsFrom (base + data.length) more := by
  rw [cellsFrom, List.mapIdx_append, cellsFrom, cellsFrom]
  simp only [Nat.add_assoc, Nat.add_comm data.length]

theorem baseAfter_cons (start : Nat) (r : Record) (rs : List Record) :
    baseAfter start (r :: rs) = baseAfter (r.base?.getD start) rs := by
  cases hbase : r.base? with
  | none => rw [baseAfter, List.filterMap_cons_none hbase, baseAfter, Option.getD_none]
  | some base =>
    rw [baseAfter, List.filterMap_cons_some hbase, baseAfter, List.getLast?_cons,
      Option.getD_some, Option.getD_some]

theorem cells_cons (start : Nat) (r : Record) (rs : List Record) :
    cells start (r :: rs) = r.cells start ++ cells (r.base?.getD start) rs := by
  rw [cells, List.zipIdx_cons, List.flatMap_cons, cells, Nat.zero_add, List.zipIdx_succ,
    List.flatMap_map]
  simp only [List.take_succ_cons, baseAfter_cons]
  rfl

/-! ## Placing and joining -/

theorem place_cons (base : Nat) (r : Record) (rs : List Record) :
    (place base (r :: rs)).flatMap Segment.cells
      = r.cells base ++ (place (r.base?.getD base) rs).flatMap Segment.cells := by
  cases r with
  | data offset bytes =>
    rw [place, List.flatMap_cons, Segment.cells, cellsFrom_mod]
    rfl
  | _ => rfl

/-- Records in their places say what they say one by one. -/
theorem place_cells (base : Nat) (rs : List Record) :
    (place base rs).flatMap Segment.cells = cells base rs := by
  induction rs generalizing base with
  | nil => rfl
  | cons r rs ih => rw [place_cons, ih, cells_cons]

theorem attach_cells (s : Segment) (ts : List Segment) :
    (attach s ts).flatMap Segment.cells = s.cells ++ ts.flatMap Segment.cells := by
  cases ts with
  | nil => rw [attach, List.flatMap_cons]
  | cons t rest =>
    rw [attach]
    split
    · rename_i htouch
      rw [List.flatMap_cons, List.flatMap_cons, ← List.append_assoc]
      congr 1
      -- the second segment begins where the first one ends, up to the wrap of addresses
      rw [Segment.cells, cellsFrom_append, ← cellsFrom_mod (s.address + _)]
      exact congrArg (fun a => s.cells ++ cellsFrom a t.data) htouch
    · rw [List.flatMap_cons]

/-- Nothing is lost, added or moved where segments are joined. -/
theorem join_cells (ss : List Segment) :
    (join ss).flatMap Segment.cells = ss.flatMap Segment.cells := by
  induction ss with
  | nil => rfl
  | cons s ss ih =>
    rw [List.flatMap_cons, ← ih]
    exact attach_cells s (join ss)

theorem filter_cells (ss : List Segment) :
    (ss.filter (!·.data.isEmpty)).flatMap Segment.cells = ss.flatMap Segment.cells := by
  induction ss with
  | nil => rfl
  | cons s ss ih =>
    rw [List.flatMap_cons, ← ih, List.filter_cons]
    split
    · rfl
    · rename_i hempty
      have hdata : s.data = [] := by simpa using hempty
      rw [Segment.cells, hdata, cellsFrom_nil, List.nil_append]

/-- No segment begins where the one before it ends. -/
def Separate (ss : List Segment) : Prop := ss.IsChain fun s t => s.stop ≠ t.address

/-- Where segments that touch end together. -/
theorem stop_joined {s t : Segment} (h : s.stop = t.address) :
    Segment.stop ⟨s.address, s.data ++ t.data⟩ = t.stop := by
  rw [Segment.stop, Segment.stop, ← h, Segment.stop, List.length_append, Nat.mod_add_mod,
    Nat.add_assoc]

theorem attach_separate (s : Segment) {ts : List Segment} (h : Separate ts) :
    Separate (attach s ts) := by
  cases ts with
  | nil => exact .singleton s
  | cons t rest =>
    rw [attach]
    split
    · rename_i htouch
      cases rest with
      | nil => exact .singleton _
      | cons u rest =>
        -- what follows still meets the end it met before
        obtain ⟨hne, hrest⟩ := List.isChain_cons_cons.mp h
        exact List.isChain_cons_cons.mpr ⟨(stop_joined htouch).symm ▸ hne, hrest⟩
    · rename_i hgap
      exact List.isChain_cons_cons.mpr ⟨hgap, h⟩

/-- Whatever segments are joined, they are joined wherever they touch. -/
theorem join_separate (ss : List Segment) : Separate (join ss) := by
  induction ss with
  | nil => exact .nil
  | cons s ss ih => exact attach_separate s ih

theorem attach_nonempty {s : Segment} {ts : List Segment} (hs : s.data ≠ [])
    (hts : ∀ t ∈ ts, t.data ≠ []) : ∀ t ∈ attach s ts, t.data ≠ [] := by
  cases ts with
  | nil => exact List.forall_mem_singleton.mpr hs
  | cons t rest =>
    rw [attach]
    split
    · obtain ⟨-, hrest⟩ := List.forall_mem_cons.mp hts
      exact List.forall_mem_cons.mpr ⟨List.append_ne_nil_of_left_ne_nil hs _, hrest⟩
    · exact List.forall_mem_cons.mpr ⟨hs, hts⟩

theorem join_nonempty {ss : List Segment} (h : ∀ s ∈ ss, s.data ≠ []) :
    ∀ s ∈ join ss, s.data ≠ [] := by
  induction ss with
  | nil => exact h
  | cons s ss ih =>
    obtain ⟨hs, hss⟩ := List.forall_mem_cons.mp h
    exact attach_nonempty hs (ih hss)

theorem place_nonempty {rs : List Record} (h : ∀ offset, .data offset [] ∉ rs) (base : Nat) :
    ∀ s ∈ place base rs, s.data ≠ [] := by
  induction rs generalizing base with
  | nil => exact fun s hs => absurd hs List.not_mem_nil
  | cons r rs ih =>
    have hrest : ∀ offset, Record.data offset [] ∉ rs :=
      fun offset hmem => h offset (List.mem_cons_of_mem r hmem)
    cases r with
    | data offset bytes =>
      refine List.forall_mem_cons.mpr ⟨?_, ih hrest base⟩
      rintro rfl
      exact h offset List.mem_cons_self
    | _ => exact ih hrest _

/-! ## The lines of a text -/

/-- The pieces between line feeds. -/
def pieces (text : List Char) : List (List Char) :=
  text.foldr (fun c pieces =>
    match c, pieces with
    | '\n', pieces => [] :: pieces
    | c, piece :: pieces => (c :: piece) :: pieces
    | c, [] => [[c]]) [[]]

theorem lines_eq (text : List Char) :
    lines text = (pieces text).dropLast.map withoutReturn ++ (pieces text).getLast?.toList := rfl

theorem pieces_newline (text : List Char) : pieces ('\n' :: text) = [] :: pieces text := rfl

theorem pieces_cons {c : Char} {text piece : List Char} {rest : List (List Char)} (hc : c ≠ '\n')
    (h : pieces text = piece :: rest) : pieces (c :: text) = (c :: piece) :: rest := by
  rw [pieces, List.foldr_cons, ← pieces, h]
  split
  · rename_i heq
    exact absurd rfl hc
  · rename_i heq
    cases heq
    rfl
  · rename_i heq
    cases heq

/-- There is always a piece, and a line feed only puts pieces in front. -/
theorem pieces_append_newline (text more : List Char) :
    pieces text ≠ [] ∧ pieces (text ++ '\n' :: more) = pieces text ++ pieces more := by
  induction text with
  | nil => exact ⟨List.cons_ne_nil _ _, rfl⟩
  | cons c text ih =>
    obtain ⟨hne, happend⟩ := ih
    rw [List.cons_append]
    by_cases hc : c = '\n'
    · subst hc
      rw [pieces_newline, pieces_newline, happend]
      exact ⟨List.cons_ne_nil _ _, rfl⟩
    · obtain ⟨piece, rest, hpieces⟩ := List.exists_cons_of_ne_nil hne
      rw [hpieces, List.cons_append] at happend
      rw [pieces_cons hc hpieces, pieces_cons hc happend]
      exact ⟨List.cons_ne_nil _ _, rfl⟩

/-- The lines before a line feed are whole, whatever comes after it. -/
theorem lines_append_newline (text more : List Char) :
    lines (text ++ '\n' :: more) = (pieces text).map withoutReturn ++ lines more := by
  have hmore := (pieces_append_newline more []).1
  rw [lines_eq, lines_eq, (pieces_append_newline text more).2,
    List.dropLast_append_of_ne_nil hmore, List.getLast?_append_of_ne_nil _ hmore,
    List.map_append, List.append_assoc]

/-! ## Reading -/

/-- The lines that count: those with something in them before the first that ends the file. -/
def body (text : List Char) : List (List Char) :=
  ((lines text).filter (!·.isEmpty)).takeWhile (!endsFile ·)

/-- The records of the lines that count, as far as they are records. -/
def contents (text : List Char) : List Record :=
  (body text).filterMap fun line => (Record.read line).toOption

theorem records_eq (text : List Char) : records text = (body text).mapM Record.read := rfl

theorem mapM_read {ls : List (List Char)} (h : ∀ line ∈ ls, ∃ r, Record.read line = .ok r) :
    ls.mapM Record.read = .ok (ls.filterMap fun line => (Record.read line).toOption) := by
  induction ls with
  | nil => rfl
  | cons line ls ih =>
    obtain ⟨⟨r, hr⟩, hrest⟩ := List.forall_mem_cons.mp h
    rw [List.mapM_cons, hr, ih hrest, List.filterMap_cons_some (b := r) (by rw [hr]; rfl)]
    rfl

theorem mapM_read_fault {before after : List (List Char)} {line : List Char} {fault : RecordFault}
    (hbefore : ∀ l ∈ before, ∃ r, Record.read l = .ok r) (hline : Record.read line = .error fault) :
    (before ++ line :: after).mapM Record.read = .error fault := by
  rw [List.mapM_append, mapM_read hbefore, List.mapM_cons, hline]
  rfl

theorem endsFile_nil : endsFile [] = false := rfl

theorem takeWhile_append_of_stops {α : Type} {p : α → Bool} {xs : List α} {x : α} (hx : x ∈ xs)
    (hp : p x = false) (ys : List α) : (xs ++ ys).takeWhile p = xs.takeWhile p := by
  rw [List.takeWhile_append, if_neg]
  intro hlen
  have hself : xs.takeWhile p = xs := (List.takeWhile_prefix p).eq_of_length hlen
  have hall : xs.all p := hself ▸ List.all_takeWhile
  rw [List.all_eq_true.mp hall x hx] at hp
  cases hp

/-- What comes after a line that ends the file does not count. -/
theorem body_append {text : List Char} (h : ∃ line ∈ lines (text ++ ['\n']), endsFile line)
    (more : List Char) : body (text ++ '\n' :: more) = body (text ++ ['\n']) := by
  obtain ⟨line, hmem, hends⟩ := h
  have hne : line ≠ [] := by
    rintro rfl
    rw [endsFile_nil] at hends
    cases hends
  -- the piece after the last line feed is empty and ends no file
  have hwhole : line ∈ (pieces text).map withoutReturn := by
    rw [lines_append_newline] at hmem
    rcases List.mem_append.mp hmem with hmem | hmem
    · exact hmem
    · exact absurd (List.mem_singleton.mp hmem) hne
  have hkept : line ∈ ((pieces text).map withoutReturn).filter (!·.isEmpty) :=
    List.mem_filter.mpr ⟨hwhole, by simpa using hne⟩
  have hstops : (!endsFile line) = false := by rw [hends]; rfl
  rw [body, body, lines_append_newline, lines_append_newline, List.filter_append,
    List.filter_append, takeWhile_append_of_stops hkept hstops,
    takeWhile_append_of_stops hkept hstops]

/-- **The segments of an object file.**  If the lines before the end record are all records, the
segments say which byte goes where exactly as the data records do, each by the base of the last
extended address record before it, and in their order; no segment is empty; and if no data record
is empty no segment begins where the one before it ends.  Otherwise the file is refused for the
first line that is no record.  What follows the end record does not matter. -/
theorem segments_cells (text : List Char) :
    ((∀ line ∈ body text, ∃ r, Record.read line = .ok r) →
      ∃ found, segments text = .ok found ∧
        found.flatMap Segment.cells = cells 0 (contents text) ∧
        (∀ s ∈ found, s.data ≠ []) ∧
        ((∀ offset, .data offset [] ∉ contents text) → Separate found)) ∧
      (∀ before line after fault, body text = before ++ line :: after →
        (∀ l ∈ before, ∃ r, Record.read l = .ok r) → Record.read line = .error fault →
          segments text = .error fault) ∧
      ((∃ line ∈ lines (text ++ ['\n']), endsFile line) →
        ∀ more, segments (text ++ '\n' :: more) = segments (text ++ ['\n'])) := by
  refine ⟨fun hvalid => ?_, fun before line after fault hbody hbefore hline => ?_,
    fun hends more => ?_⟩
  · have hrecords : records text = .ok (contents text) := mapM_read hvalid
    refine ⟨(join (place 0 (contents text))).filter (!·.data.isEmpty), ?_, ?_, ?_, fun hdata => ?_⟩
    · rw [segments, hrecords]
      rfl
    · rw [filter_cells, join_cells, place_cells]
    · intro s hs
      simpa using (List.mem_filter.mp hs).2
    · have hjoined := join_nonempty (place_nonempty hdata 0)
      rw [List.filter_eq_self.mpr fun s hs => by simpa using hjoined s hs]
      exact join_separate _
  · rw [segments, records_eq, hbody, mapM_read_fault hbefore hline]
    rfl
  · rw [segments, segments, records_eq, records_eq, body_append hends]

/-- A run across the end of a bank under two bases, with something after the end record; and a
file with a wrong checksum. -/
theorem segments_cells_bases :
    let file := (":020000040001F9\n:02FFFE00AABB9C\n:020000040002F8\r\n" ++
      ":01000000CC33\n:00000001FF").toList
    let wrong := ":01000000CC33\n:01000000CC34\n:".toList
    (∃ found, segments (file ++ '\n' :: [':', 'x']) = .ok found ∧
      found.flatMap Segment.cells = [(0x1FFFE, 0xAA), (0x1FFFF, 0xBB), (0x20000, 0xCC)] ∧
      (∀ s ∈ found, s.data ≠ []) ∧ Separate found) ∧
    segments wrong = .error (.checksum 0x33 0x34) := by
  intro file wrong
  have hcontents : contents (file ++ ['\n']) =
      [.linearBase 1, .data 0xFFFE [0xAA, 0xBB], .linearBase 2, .data 0 [0xCC]] := by
    decide +kernel
  have hsome : ∀ line ∈ body (file ++ ['\n']), (Record.read line).toOption.isSome := by
    decide +kernel
  have hvalid : ∀ line ∈ body (file ++ ['\n']), ∃ r, Record.read line = .ok r := by
    intro line hl
    cases hread : Record.read line with
    | ok r => exact ⟨r, rfl⟩
    | error fault =>
      have := hsome line hl
      rw [hread] at this
      cases this
  have hdata : ∀ offset, Record.data offset [] ∉ contents (file ++ ['\n']) := by
    simp [hcontents]
  have hcells : cells 0 (contents (file ++ ['\n']))
      = [(0x1FFFE, 0xAA), (0x1FFFF, 0xBB), (0x20000, 0xCC)] := by
    rw [hcontents]
    decide +kernel
  obtain ⟨found, hfound, hflat, hfull, hseparate⟩ := (segments_cells (file ++ ['\n'])).1 hvalid
  have hends : ∃ line ∈ lines (file ++ ['\n']), endsFile line := by decide +kernel
  have hrest := (segments_cells file).2.2 hends [':', 'x']
  refine ⟨⟨found, hrest.trans hfound, hflat.trans hcells, hfull, hseparate hdata⟩, ?_⟩
  have hbody : body wrong = [":01000000CC33".toList] ++ ":01000000CC34".toList :: [[':']] := by
    decide +kernel
  refine (segments_cells wrong).2.1 _ _ _ _ hbody (List.forall_mem_singleton.mpr ?_) ?_
  · exact ⟨.data 0 [0xCC], by decide +kernel⟩
  · decide +kernel

end BoardConsole.ObjectFile
