import BoardConsole.ObjectFile.Record

/-!
# Segments of an object file

An object file describes runs of bytes in memory.  Its data records are placed at the base in
force, neighbours that touch are joined, and what is left empty is dropped; the runs stay in the
order of the file.  Addresses have 32 bits and wrap.
-/

namespace BoardConsole.ObjectFile

/-- Bytes at consecutive addresses. -/
structure Segment where
  /-- Where the first byte goes. -/
  address : Nat
  /-- The bytes. -/
  data : Bytes
  deriving DecidableEq, Repr

/-- Number of addresses in an object file. -/
def addressSpace : Nat := 0x100000000

/-- The address after the last byte. -/
def Segment.stop (s : Segment) : Nat := (s.address + s.data.length) % addressSpace

/-- A line without the carriage return before its line feed. -/
def withoutReturn (line : List Char) : List Char :=
  if line.getLast? = some '\r' then line.dropLast else line

/-- The lines of a text: the pieces between line feeds.  The last piece has no line feed after it
and keeps its carriage return. -/
def lines (text : List Char) : List (List Char) :=
  let pieces := text.foldr (fun c pieces =>
    match c, pieces with
    | '\n', pieces => [] :: pieces
    | c, piece :: pieces => (c :: piece) :: pieces
    | c, [] => [[c]]) [[]]
  pieces.dropLast.map withoutReturn ++ pieces.getLast?.toList

/-- Whether a line is a record that ends the file. -/
def endsFile (line : List Char) : Bool :=
  match Record.read line with
  | .ok .endOfFile => true
  | _ => false

/-- The records of a file up to its end, or the fault of the first bad line before that. -/
def records (text : List Char) : Except RecordFault (List Record) :=
  (((lines text).filter (!·.isEmpty)).takeWhile (!endsFile ·)).mapM Record.read

/-- The data records at their addresses, from a base on. -/
def place : Nat → List Record → List Segment
  | _, [] => []
  | base, .data offset bytes :: rest =>
    ⟨(base + offset) % addressSpace, bytes⟩ :: place base rest
  | _, .segmentBase segment :: rest => place (16 * segment) rest
  | _, .linearBase upper :: rest => place (65536 * upper) rest
  | base, .endOfFile :: rest => place base rest
  | base, .segmentStart :: rest => place base rest
  | base, .linearStart :: rest => place base rest

/-- A segment put in front of others, joined with the first where they touch. -/
def attach (s : Segment) : List Segment → List Segment
  | [] => [s]
  | t :: rest => if s.stop = t.address then ⟨s.address, s.data ++ t.data⟩ :: rest else s :: t :: rest

/-- Segments with neighbours joined wherever they touch. -/
def join (segments : List Segment) : List Segment := segments.foldr attach []

/-- The segments of an object file. -/
def segments (text : List Char) : Except RecordFault (List Segment) :=
  (records text).map fun rs => (join (place 0 rs)).filter (!·.data.isEmpty)

/-- Segments in a few words, for diagnostics. -/
def summary (found : List Segment) : String :=
  let count := found.foldl (fun n s => n + s.data.length) 0
  s!"parsed {found.length} segment(s), {count} bytes"

end BoardConsole.ObjectFile
