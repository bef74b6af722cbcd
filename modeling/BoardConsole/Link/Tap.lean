import BoardConsole.Link.Basic

/-!
# Traffic on a link

A tap is a link that notes every operation on another link, in order, and changes none of them.
-/

namespace BoardConsole

/-- One operation on a link. -/
inductive Operation
  /-- Bytes sent, and whether they were taken. -/
  | write (bytes : Bytes) (taken : Bool)
  /-- A read into a buffer with some room, and the bytes it gave unless it failed. -/
  | read (room : Nat) (got : Option Bytes)
  /-- A read with a limit in milliseconds, and the bytes it gave unless it failed. -/
  | readWithin (room limit : Nat) (got : Option Bytes)
  /-- A wait in microseconds. -/
  | delay (micros : Nat)
  deriving DecidableEq, Repr

namespace Operation

/-- The bytes an operation put on the wire. -/
def sent : Operation → Bytes
  | .write bytes true => bytes
  | _ => []

/-- The wait an operation is, if it is one. -/
def wait? : Operation → Option Nat
  | .delay micros => some micros
  | _ => none

/-- The limit an operation sets, if it sets one. -/
def limit? : Operation → Option Nat
  | .readWithin _ limit _ => some limit
  | _ => none

end Operation

/-- A link and the operations on it so far. -/
structure Tap (σ : Type) where
  /-- The link listened to. -/
  link : σ
  /-- The operations, first to last. -/
  traffic : Array Operation := #[]

namespace Tap

variable {σ : Type}

/-- A write, and the note of it. -/
def write [Link σ] (t : Tap σ) (bs : Bytes) : Except Fault Nat × Tap σ :=
  let ⟨link, traffic⟩ := t
  let (result, link) := Link.write link bs
  (result, ⟨link, traffic.push (.write bs result.isOk)⟩)

/-- A read, and the note of it. -/
def read [Link σ] (t : Tap σ) (room : Nat) : Except Fault Bytes × Tap σ :=
  let ⟨link, traffic⟩ := t
  let (result, link) := Link.read link room
  (result, ⟨link, traffic.push (.read room result.toOption)⟩)

/-- A read with a limit, and the note of it. -/
def readWithin [Link σ] (t : Tap σ) (room limit : Nat) : Except Fault Bytes × Tap σ :=
  let ⟨link, traffic⟩ := t
  let (result, link) := Link.readWithin link room limit
  (result, ⟨link, traffic.push (.readWithin room limit result.toOption)⟩)

/-- A wait, and the note of it. -/
def delay [Link σ] (t : Tap σ) (micros : Nat) : Tap σ :=
  let ⟨link, traffic⟩ := t
  ⟨Link.delay link micros, traffic.push (.delay micros)⟩

end Tap

instance {σ : Type} [Link σ] : Link (Tap σ) where
  write := Tap.write
  read := Tap.read
  readWithin := Tap.readWithin
  delay := Tap.delay
  remark t := Link.remark t.link
  read_length t room bs h := Link.read_length t.link room bs h

end BoardConsole
