import BoardConsole.Debugger.Execution
import BoardConsole.Link.Basic
import BoardConsole.Pacing

/-!
# Debug sessions

A session carries procedures out on a link.  Characters go out one by one with a pause after each;
the first one that is refused ends the string it belongs to.  A reply is two bytes, in one piece or
in two.  Whatever goes wrong is told to the user, a bad reply counts as zero, and the procedure
goes on.

* `Session.carryOut`: one intent.
* `Session.perform`: a whole procedure.
* `Session.dispatch`: a command by its words.
-/

namespace BoardConsole.Debugger

/-- A link that is debugged over, and what has been told about it. -/
structure Session (σ : Type) where
  /-- The link. -/
  link : σ
  /-- How fast characters are sent. -/
  pacing : Pacing
  /-- What the user has been told, first to last. -/
  transcript : Array Entry := #[]
  /-- Diagnostics. -/
  log : Log := .quiet

/-- Why a reply is no byte. -/
inductive ReplyFault
  /-- It did not come. -/
  | link (fault : Fault)
  /-- It came and is not two digits. -/
  | garbled (reply : Hex.Garbled)
  deriving DecidableEq, Repr

/-- What is told about a bad reply. -/
def ReplyFault.message : ReplyFault → String
  | .link fault => s!"Error reading from debug device: {fault.message}"
  | .garbled reply => s!"Error parsing data from debug device: {reply.message}"

/-- What is remarked about a bad reply. -/
def ReplyFault.remark : ReplyFault → String
  | .link fault => s!"debug link read failed: {fault.message}"
  | .garbled reply => s!"debug link returned garbage: {reply.message}"

/-- The time that stale bytes are waited for, in milliseconds. -/
def drainLimit : Nat := 100

/-- The number of stale bytes that are taken at once. -/
def drainRoom : Nat := 16

namespace Session

variable {σ : Type} [Link σ]

/-- Something told to the user. -/
def tell (s : Session σ) (entry : Entry) : Session σ :=
  let ⟨link, pacing, transcript, log⟩ := s
  ⟨link, pacing, transcript.push entry, log⟩

/-- A remark left in the log. -/
def note (s : Session σ) (level : Log.Level) (text : Unit → String) : Session σ :=
  let ⟨link, pacing, transcript, log⟩ := s
  ⟨link, pacing, transcript, log.add level text⟩

/-- Time spent. -/
def wait (s : Session σ) (micros : Nat) : Session σ :=
  let ⟨link, pacing, transcript, log⟩ := s
  ⟨Link.delay link micros, pacing, transcript, log⟩

/-- A byte sent and followed by the pause due, or why it was refused. -/
def sendByte (s : Session σ) (b : UInt8) : Option Fault × Session σ :=
  let ⟨link, pacing, transcript, log⟩ := s
  let log := Link.remark link [b] log
  match Link.write link [b] with
  | (.error fault, link) => (some fault, ⟨link, pacing, transcript, log⟩)
  | (.ok _, link) =>
    match pacing.charDelay with
    | none => (none, ⟨link, pacing, transcript, log⟩)
    | some micros => (none, ⟨Link.delay link micros, pacing, transcript, log⟩)

/-- Bytes sent up to the first that is refused. -/
def sendBytes (s : Session σ) : Bytes → Session σ
  | [] => s
  | b :: bs =>
    match s.sendByte b with
    | (none, s) => s.sendBytes bs
    | (some fault, s) =>
      (s.note .warn fun _ => s!"debug link write failed: {fault.message}").tell
        (.line s!"Error writing to debug device: {fault.message}")

/-- Characters sent. -/
def send (s : Session σ) (text : List Char) : Session σ :=
  (s.note .trace fun _ => s!"debug tx {Text.quote (String.ofList text)}").sendBytes
    (Utf8.encode text)

/-- Two bytes from a link. -/
def readPair (link : σ) : Except Fault Bytes × σ :=
  match Link.read link 2 with
  | (.error fault, link) => (.error fault, link)
  | (.ok [], link) => (.error .timeout, link)
  | (.ok (first :: second :: _), link) => (.ok [first, second], link)
  | (.ok [first], link) =>
    match Link.read link 1 with
    | (.error fault, link) => (.error fault, link)
    | (.ok [], link) => (.error .timeout, link)
    | (.ok (second :: _), link) => (.ok [first, second], link)

/-- A byte from a link, as two digits. -/
def readReply (link : σ) : Except ReplyFault UInt8 × σ :=
  match readPair link with
  | (.error fault, link) => (.error (.link fault), link)
  | (.ok pair, link) =>
    match Hex.decodeByte pair with
    | .error reply => (.error (.garbled reply), link)
    | .ok b => (.ok b, link)

/-- A byte received, zero if there is none. -/
def receive (s : Session σ) : UInt8 × Session σ :=
  let ⟨link, pacing, transcript, log⟩ := s
  match readReply link with
  | (.ok b, link) =>
    (b, (⟨link, pacing, transcript, log⟩ : Session σ).note .trace fun _ =>
      s!"debug rx {Hex.byte b}")
  | (.error fault, link) =>
    (0, ((⟨link, pacing, transcript, log⟩ : Session σ).note .warn fun _ => fault.remark).tell
      (.line fault.message))

/-- Stale bytes thrown away, and their number. -/
def discard (s : Session σ) : Nat × Session σ :=
  let ⟨link, pacing, transcript, log⟩ := s
  match Link.readWithin link drainRoom drainLimit with
  | (.error fault, link) =>
    (0, (⟨link, pacing, transcript, log⟩ : Session σ).note .debug fun _ =>
      s!"resync read failed: {fault.message}")
  | (.ok [], link) => (0, ⟨link, pacing, transcript, log⟩)
  | (.ok bs, link) =>
    let count := bs.length
    (count, ((⟨link, pacing, transcript, log⟩ : Session σ).note .debug fun _ =>
      s!"resync discarded {showList Hex.byte bs}").tell
        (.line s!"Discarded {count} byte{plural count} from debug device."))

/-- One intent carried out. -/
def carryOut (s : Session σ) : (intent : Intent) → intent.Answer × Session σ
  | .send text => ((), s.send text)
  | .reply => s.receive
  | .drain => s.discard
  | .settle micros => ((), s.wait micros)
  | .tell entry => ((), s.tell entry)
  | .note record => ((), s.note record.level fun _ => record.text)

/-- A procedure carried out. -/
def perform {α : Type} : Procedure α → Session σ → α × Session σ
  | .done a, s => (a, s)
  | .step intent next, s =>
    match s.carryOut intent with
    | (answer, s) => perform (next answer) s

/-- A command executed. -/
def execute (s : Session σ) (loader : Loader) (command : Command) : Session σ :=
  (perform (command.procedure loader)
    (s.note .info fun _ => s!"debug command: {command.describe}")).2

/-- A command executed by its words; no words are no command. -/
def dispatch (s : Session σ) (loader : Loader) (words : List String) : Session σ :=
  match Command.parse words with
  | none => s
  | some command => s.execute loader command

/-- A session on a link that has just been opened: stale bytes are thrown away first. -/
def opened (s : Session σ) : Session σ := s.discard.2

end Session

end BoardConsole.Debugger
