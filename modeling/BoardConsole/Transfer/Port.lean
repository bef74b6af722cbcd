import BoardConsole.Transfer.Sender

/-!
# Ports

What a file transfer runs over: single bytes come in, pieces of bytes go out, and the first
failure ends the transfer.

* `Port π`: the operations on ports of type `π`.
* `Port.run`: a dialogue carried out.
* `LinkPort σ`: a link used as a port.
-/

namespace BoardConsole.Transfer

/-- States that a file can be sent over. -/
class Port (π : Type) where
  /-- The next byte from the receiver. -/
  readByte : π → Except Fault UInt8 × π
  /-- Bytes for the receiver. -/
  write : π → Bytes → Except Fault Unit × π
  /-- A remark left in the log. -/
  note : π → Log.Record → π

/-- A dialogue carried out up to its end or the first failure. -/
def Port.run {π : Type} [Port π] {α : Type} : Dialogue α → π → Except Failure α × π
  | .done a, p => (.ok a, p)
  | .step (.write bytes) next, p =>
    match Port.write p bytes with
    | (.error fault, p) => (.error (.fault fault), p)
    | (.ok _, p) => Port.run (next ()) p
  | .step .read next, p =>
    match Port.readByte p with
    | (.error fault, p) => (.error (.fault fault), p)
    | (.ok b, p) => Port.run (next b) p
  | .step (.note record) next, p => Port.run (next ()) (Port.note p record)
  | .step (.fail failure) _, p => (.error failure, p)

/-- A link used as a port. -/
structure LinkPort (σ : Type) where
  /-- The link. -/
  link : σ
  /-- Diagnostics. -/
  log : Log := .quiet

namespace LinkPort

variable {σ : Type} [Link σ]

/-- One byte read; a time without data is a timeout. -/
def readByte (p : LinkPort σ) : Except Fault UInt8 × LinkPort σ :=
  let ⟨link, log⟩ := p
  match Link.read link 1 with
  | (.error fault, link) => (.error fault, ⟨link, log⟩)
  | (.ok [], link) => (.error .timeout, ⟨link, log⟩)
  | (.ok (b :: _), link) => (.ok b, ⟨link, log⟩)

/-- Bytes written in one piece. -/
def write (p : LinkPort σ) (bytes : Bytes) : Except Fault Unit × LinkPort σ :=
  let ⟨link, log⟩ := p
  match Link.write link bytes with
  | (.error fault, link) => (.error fault, ⟨link, log⟩)
  | (.ok _, link) => (.ok (), ⟨link, log⟩)

instance : Port (LinkPort σ) where
  readByte := readByte
  write := write
  note p record := { p with log := p.log.record record }

end LinkPort

end BoardConsole.Transfer
