import BoardConsole.Console.Request
import BoardConsole.Pacing
import BoardConsole.Transfer.Port

/-!
# The console link during a transfer

A transfer reads the bytes that arrive as requests and writes to the link at the usual pace.  Before
it writes it takes in whatever has been queued, so that calling it off works at once.  Requests it
has no use for are dropped.

* `writePaced`: bytes written one by one.
* `TransferPort σ`: the port of a transfer.
-/

namespace BoardConsole.Console

open Transfer (Port)

/-- Bytes written one by one, each followed by the pause due; the first failure ends it. -/
def writePaced {σ : Type} [Link σ] (pacing : Pacing) : Bytes → σ → Except Fault Unit × σ
  | [], link => (.ok (), link)
  | b :: bs, link =>
    match Link.write link [b] with
    | (.error fault, link) => (.error fault, link)
    | (.ok _, link) =>
      match pacing.charDelay with
      | none => writePaced pacing bs link
      | some micros => writePaced pacing bs (Link.delay link micros)

/-- A byte of a transfer in diagnostics. -/
def describeByte (b : UInt8) : String :=
  if Bytes.isPrintable b then s!"[0x{Hex.byte b} '{Bytes.toChar b}']" else s!"[0x{Hex.byte b}]"

/-- The console link and its queue in the hands of a transfer. -/
structure TransferPort (σ : Type) where
  /-- The link. -/
  link : σ
  /-- How fast bytes are written. -/
  pacing : Pacing
  /-- The queue. -/
  inbox : Inbox
  /-- Bytes taken in and not read. -/
  pending : Bytes := []
  /-- Why nothing more comes in, once that is known. -/
  closed : Option String := none
  /-- Diagnostics. -/
  log : Log := .quiet

namespace TransferPort

variable {σ : Type}

/-- A remark left in the log. -/
def note (p : TransferPort σ) (level : Log.Level) (text : Unit → String) : TransferPort σ :=
  let ⟨link, pacing, inbox, pending, closed, log⟩ := p
  ⟨link, pacing, inbox, pending, closed, log.add level text⟩

/-- A request taken in. -/
def accept (p : TransferPort σ) : Request → Except Fault Unit × TransferPort σ
  | .incoming bytes => (.ok (), { p with pending := p.pending ++ bytes })
  | .cancel => (.error .cancelled, p)
  | .closed reason => (.error (.io reason), { p with closed := some reason })
  | .keys bytes =>
    (.ok (), p.note .debug fun _ => s!"ignoring {(Request.keys bytes).describe} during transfer")
  | .send protocol file =>
    (.ok (), p.note .debug fun _ =>
      s!"ignoring {(Request.send protocol file).describe} during transfer")

/-- The queue as it is from now on. -/
def withArrivals (p : TransferPort σ) (arrivals : List Arrival) : TransferPort σ :=
  { p with inbox.arrivals := arrivals }

/-- Requests taken in as long as the queue holds any; the rest stays when one of them ends the
transfer. -/
def takeQueued (p : TransferPort σ) : List Arrival → Except Fault Unit × TransferPort σ
  | [] => (.ok (), p.withArrivals [])
  | .pause :: rest => (.ok (), p.withArrivals rest)
  | .lapse :: rest => (.ok (), p.withArrivals rest)
  | .request r :: rest =>
    match p.accept r with
    | (.error fault, p) => (.error fault, p.withArrivals rest)
    | (.ok _, p) => p.takeQueued rest

/-- Why no more bytes come in when the queue has ended. -/
def atEnd (p : TransferPort σ) : Fault := if p.inbox.silent then .timeout else .cancelled

/-- The next byte, for which requests are taken in. -/
def awaitByte (p : TransferPort σ) (arrivals : List Arrival) :
    Except Fault UInt8 × TransferPort σ :=
  match p.pending with
  | b :: rest =>
    (.ok b, ({ p.withArrivals arrivals with pending := rest } : TransferPort σ).note .trace
      fun _ => s!"Xfer: Neon->Proto {describeByte b}")
  | [] =>
    match arrivals with
    | [] => (.error p.atEnd, p.withArrivals [])
    | .pause :: rest => p.awaitByte rest
    | .lapse :: rest => (.error .timeout, p.withArrivals rest)
    | .request r :: rest =>
      match p.accept r with
      | (.error fault, p) => (.error fault, p.withArrivals rest)
      | (.ok _, p) => p.awaitByte rest
termination_by structural arrivals

/-- A byte from the receiver. -/
def readByte (p : TransferPort σ) : Except Fault UInt8 × TransferPort σ :=
  p.awaitByte p.inbox.arrivals

/-- What is remarked about bytes for the receiver. -/
def remarkAll (p : TransferPort σ) (bytes : Bytes) : TransferPort σ :=
  if p.log.keeps .trace then
    bytes.foldl (fun p b => p.note .trace fun _ => s!"Xfer: Proto->Neon {describeByte b}") p
  else p

/-- Bytes for the receiver. -/
def write [Link σ] (p : TransferPort σ) (bytes : Bytes) : Except Fault Unit × TransferPort σ :=
  match p.takeQueued p.inbox.arrivals with
  | (.error fault, p) => (.error fault, p)
  | (.ok _, p) =>
    let ⟨link, pacing, inbox, pending, closed, log⟩ := p.remarkAll bytes
    let (result, link) := writePaced pacing bytes link
    (result, ⟨link, pacing, inbox, pending, closed, log⟩)

instance [Link σ] : Port (TransferPort σ) where
  readByte := readByte
  write := write
  note p record := p.note record.level fun _ => record.text

end TransferPort

end BoardConsole.Console
