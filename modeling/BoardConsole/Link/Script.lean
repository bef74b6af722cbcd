import BoardConsole.Link.Basic

/-!
# Scripted links

A link whose answers are laid down beforehand: a list of what its reads give, and a range of its
writes that fail.
-/

namespace BoardConsole

/-- A link that plays a script. -/
structure Script where
  /-- What the next reads give. -/
  reads : List (Except Fault Bytes) := []
  /-- The number of writes so far. -/
  writes : Nat := 0
  /-- The number of the first write that fails, and how many fail. -/
  failing : Nat × Nat := (0, 0)
  /-- Why reads fail once the script is played; without a reason they give nothing. -/
  ending : Option Fault := none
  deriving Repr

namespace Script

/-- Whether the next write fails. -/
def refuses (s : Script) : Bool :=
  s.failing.1 ≤ s.writes && s.writes < s.failing.1 + s.failing.2

/-- A write. -/
def write (s : Script) (bs : Bytes) : Except Fault Nat × Script :=
  (if s.refuses then .error (.io "link down") else .ok bs.length,
    { s with writes := s.writes + 1 })

/-- A read: what fits of the next piece, the rest of which stays. -/
def read (s : Script) (room : Nat) : Except Fault Bytes × Script :=
  match s.reads with
  | [] => (match s.ending with | some fault => .error fault | none => .ok [], s)
  | .error fault :: rest => (.error fault, { s with reads := rest })
  | .ok bs :: rest =>
    (.ok (bs.take room),
      { s with reads := if bs.length ≤ room then rest else .ok (bs.drop room) :: rest })

/-- A number of reads that plays the script to its end and beyond, whatever the room for each. -/
def readLimit (s : Script) : Nat :=
  s.reads.foldl (fun
    | n, .ok bs => n + bs.length + 1
    | n, .error _ => n + 1) 1

theorem length_of_read {s : Script} {room : Nat} {bs : Bytes} (h : (s.read room).1 = .ok bs) :
    bs.length ≤ room := by
  unfold read at h
  split at h
  · split at h
    · cases h
    · cases h; exact Nat.zero_le _
  · cases h
  · cases h; exact List.length_take_le _ _

end Script

instance : Link Script where
  write := Script.write
  read := Script.read
  readWithin s room _ := s.read room
  delay s _ := s
  read_length _ _ _ h := Script.length_of_read h

end BoardConsole
