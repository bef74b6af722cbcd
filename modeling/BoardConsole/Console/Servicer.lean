import BoardConsole.Console.TransferPort
import BoardConsole.Files
import BoardConsole.Link.Device

/-!
# The console servicer

One servicer owns the write side of the console link and takes requests from a queue, one after
another, until the queue is closed or the link fails.  The read side of the link is a stream of
requests.

* `Console σ`: the servicer's state.
* `Console.run`: the whole run.
* `Console.listen`: the requests that the read side makes.
-/

namespace BoardConsole

open Console

/-- A servicer, and what it has shown. -/
structure Console (σ : Type) where
  /-- The link. -/
  link : σ
  /-- The name of the device. -/
  device : String
  /-- What the device is. -/
  kind : Device.Kind
  /-- How fast bytes are written. -/
  pacing : Pacing
  /-- The queue. -/
  inbox : Inbox
  /-- What it has shown, first to last. -/
  events : Array Event := #[]
  /-- Diagnostics. -/
  log : Log := .quiet

namespace Console

variable {σ : Type}

/-- An event shown. -/
def emit (c : Console σ) (event : Event) : Console σ :=
  { c with events := c.events.push event }

/-- A remark left in the log. -/
def note (c : Console σ) (level : Log.Level) (text : Unit → String) : Console σ :=
  { c with log := c.log.add level text }

/-- The word for a kind of device. -/
def kindWord : Device.Kind → String
  | .socket => "socket"
  | .serial => "device"

/-- What is shown first. -/
def greeting (c : Console σ) : Event :=
  .console (Utf8.encode s!"Connected to {kindWord c.kind}: {c.device}\r\n".toList)

/-- What is shown when the link cannot be written to. -/
def writeFailure (c : Console σ) (fault : Fault) : Event :=
  .quit s!"Error writing to {c.device}: {fault.message}"

/-- What is shown when nothing more comes in from the link. -/
def readFailure (c : Console σ) (reason : String) : Event :=
  .quit s!"Error reading from {c.device}: {reason}"

/-- How a transfer ended, for the user. -/
def outcome : Except Transfer.Failure Unit → String
  | .ok _ => "Transfer complete!"
  | .error (.fault .cancelled) => "Transfer cancelled!"
  | .error failure => s!"Transfer failed: {failure.message}"

/-- The contents of a file sent, and why nothing more comes in if that turned out. -/
def sendData [Link σ] (c : Console σ) (protocol : Transfer.Protocol) (file : String) (data : Bytes) :
    Option String × Console σ :=
  let c := c.emit (.line s!"Sending {file}, size {data.length}...")
  let name := (Files.lastName? file).getD ""
  let ⟨link, device, kind, pacing, inbox, events, log⟩ := c
  let port : TransferPort σ := { link, pacing, inbox, log }
  match Transfer.Port.run (Transfer.Dialogue.sendFile protocol name data) port with
  | (result, ⟨link, pacing, inbox, _, closed, log⟩) =>
    let log := match result with
      | .ok _ => log.add .info fun _ => s!"sent {file} via {protocol.name}"
      | .error _ => log
    (closed, (⟨link, device, kind, pacing, inbox, events, log⟩ : Console σ).emit
      (.line (outcome result)))

/-- A file sent, and why nothing more comes in if that turned out. -/
def transfer [Link σ] (files : Files) (c : Console σ) (protocol : Transfer.Protocol)
    (file : String) : Option String × Console σ :=
  match files.read file with
  | .error fault => (none, c.emit (.line s!"Could not open {file}: {fault.message}"))
  | .ok data => c.sendData protocol file data

/-- One request, and whether the servicer goes on after it. -/
def handle [Link σ] (files : Files) (c : Console σ) : Request → Bool × Console σ
  | .keys bytes =>
    let ⟨link, device, kind, pacing, inbox, events, log⟩ := c
    match writePaced pacing bytes link with
    | (.ok _, link) => (true, ⟨link, device, kind, pacing, inbox, events, log⟩)
    | (.error fault, link) =>
      let c : Console σ := ⟨link, device, kind, pacing, inbox, events, log⟩
      (false, c.emit (c.writeFailure fault))
  | .incoming bytes => (true, c.emit (.console bytes))
  | .send protocol file =>
    match c.transfer files protocol file with
    | (none, c) => (true, c)
    | (some reason, c) => (false, c.emit (c.readFailure reason))
  | .cancel => (true, c.emit (.line "No transfer in progress!"))
  | .closed reason => (false, c.emit (c.readFailure reason))

/-- Requests handled, at most the given number of them. -/
def runFor [Link σ] (files : Files) : Nat → Console σ → Console σ
  | 0, c => c
  | n + 1, c =>
    match nextRequest c.inbox.arrivals with
    | none =>
      ({ c with inbox.arrivals := [] } : Console σ).note .debug fun _ =>
        s!"console servicer for {c.device} stopped"
    | some (request, rest) =>
      match ({ c with inbox.arrivals := rest } : Console σ).handle files request with
      | (true, c) => runFor files n c
      | (false, c) => c

/-- The whole run of a servicer.  Every request takes at least one arrival from the queue. -/
def run [Link σ] (files : Files) (c : Console σ) : Console σ :=
  runFor files (c.inbox.arrivals.length + 1) (c.emit c.greeting)

/-- The number of bytes read at once. -/
def readRoom : Nat := 1024

/-- The requests that come of at most the given number of reads from a link.  Reads that give
nothing make none, and the first that fails is the last. -/
def listen [Link σ] : Nat → σ → List Request
  | 0, _ => []
  | n + 1, link =>
    match Link.read link readRoom with
    | (.ok [], link) => listen n link
    | (.ok bytes, link) => .incoming bytes :: listen n link
    | (.error fault, _) => [.closed fault.message]

/-- What listening gives reason to remark. -/
def listenRemark (requests : List Request) (log : Log) : Log :=
  match requests.getLast? with
  | some (.closed reason) => log.add .warn fun _ => s!"console link read failed: {reason}"
  | _ => log

end Console

end BoardConsole
