import BoardConsole.Link.Basic
import BoardConsole.Link.Device

/-!
# Streams

An open port is two queues of bytes between the program and its peer.  A read that finds nothing
gives no bytes, unless the peer is gone for good.  What the peer sent before it went can still be
read from a socket; a serial line is dead as soon as the other end hangs up.
-/

namespace BoardConsole

/-- An open port. -/
structure Stream where
  /-- What it was opened as. -/
  kind : Device.Kind
  /-- Bytes from the peer that have not been read. -/
  incoming : Bytes := []
  /-- Bytes to the peer that have not been read. -/
  outgoing : Bytes := []
  /-- Whether the peer is gone. -/
  closed : Bool := false
  /-- Whether it went without reading everything, and nobody has been told. -/
  reset : Bool := false
  deriving DecidableEq, Repr

namespace Stream

/-- Bytes sent by the peer. -/
def peerWrite (s : Stream) (bs : Bytes) : Stream := { s with incoming := s.incoming ++ bs }

/-- Bytes read by the peer. -/
def peerRead (s : Stream) (count : Nat) : Bytes × Stream :=
  (s.outgoing.take count, { s with outgoing := s.outgoing.drop count })

/-- The peer gone. -/
def peerClose (s : Stream) : Stream := { s with closed := true, reset := !s.outgoing.isEmpty }

/-- What is said when there is nobody to talk to. -/
def brokenPipe : Device.Kind → String
  | .socket => "Broken pipe (os error 32)"
  | .serial => "Broken pipe"

/-- Bytes sent to the peer. -/
def write (s : Stream) (bs : Bytes) : Except Fault Nat × Stream :=
  if s.closed && !bs.isEmpty then (.error (.io (brokenPipe s.kind)), s)
  else (.ok bs.length, { s with outgoing := s.outgoing ++ bs })

/-- Bytes from the peer, as many as there are room and bytes. -/
def read (s : Stream) (room : Nat) : Except Fault Bytes × Stream :=
  if s.kind = .serial ∧ s.closed then (.error (.io (brokenPipe s.kind)), s)
  else if s.incoming.isEmpty && s.reset then
    (.error (.io "Connection reset by peer (os error 104)"), { s with reset := false })
  else if s.incoming.isEmpty && s.closed && room ≠ 0 then (.error (.io "EOF"), s)
  else (.ok (s.incoming.take room), { s with incoming := s.incoming.drop room })

/-- Bytes from the peer, a count of them, or what keeps them from coming. -/
def readExactly (s : Stream) (count : Nat) : Except Fault Bytes × Stream :=
  if count = 0 then (.ok [], s)
  else if s.closed ∧ s.incoming.length < count then ({ s with incoming := [] } : Stream).read count
  else s.read count

/-- Bytes from the peer within some milliseconds.  Sockets refuse a limit of none. -/
def readWithin (s : Stream) (room limit : Nat) : Except Fault Bytes × Stream :=
  if s.kind = .socket ∧ limit = 0 then (.error (.io "cannot set a 0 duration timeout"), s)
  else s.read room

end Stream

instance : Link Stream where
  write := Stream.write
  read := Stream.read
  readWithin := Stream.readWithin
  delay s _ := s
  read_length s room bs h := by
    unfold Stream.read at h
    split at h
    · cases h
    · split at h
      · cases h
      · split at h
        · cases h
        · cases h; exact List.length_take_le _ _

end BoardConsole
