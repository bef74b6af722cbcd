import BoardConsole.Bytes
import BoardConsole.Text.Quoted
import BoardConsole.Transfer.Protocol

/-!
# Requests to the console

Everything the console does is asked for by a request, and the bytes that come in from the target
are requests as well, so that a file transfer can take over the incoming bytes by taking over the
queue.

* `Request` and `Event`: what goes into the console and what it has to show.
* `Inbox`: the queue, with the moments at which it was found empty.
-/

namespace BoardConsole.Console

open Transfer (Protocol)

/-- Work for the console. -/
inductive Request
  /-- Bytes for the target, typed by the user or answered by the terminal. -/
  | keys (bytes : Bytes)
  /-- Bytes from the target. -/
  | incoming (bytes : Bytes)
  /-- A file to send. -/
  | send (protocol : Protocol) (file : String)
  /-- The running transfer is called off. -/
  | cancel
  /-- Nothing more will come in from the target. -/
  | closed (reason : String)
  deriving DecidableEq, Repr

/-- A request in diagnostics. -/
def Request.describe : Request → String
  | .keys bytes => s!"Keys({bytes.map UInt8.toNat})"
  | .incoming bytes => s!"Incoming({bytes.map UInt8.toNat})"
  | .send protocol file =>
    "Send \x7b protocol: " ++ protocol.describe ++ ", file: " ++ Text.quote file ++ " \x7d"
  | .cancel => "Cancel"
  | .closed reason => s!"Closed({Text.quote reason})"

/-- What there is to show. -/
inductive Event
  /-- Bytes for the terminal. -/
  | console (bytes : Bytes)
  /-- A line for the debug pane. -/
  | line (text : String)
  /-- A line for the debug pane that the next one replaces. -/
  | progress (text : String)
  /-- The end of the program. -/
  | quit (reason : String)
  deriving DecidableEq, Repr

/-- What a queue turns up. -/
inductive Arrival
  /-- A request. -/
  | request (request : Request)
  /-- Nothing for the moment. -/
  | pause
  /-- Nothing for so long that a transfer gives up waiting for a byte. -/
  | lapse
  deriving DecidableEq, Repr

/-- A queue of requests: what arrives when, and how it ends. -/
structure Inbox where
  /-- What it turns up, first to last. -/
  arrivals : List Arrival
  /-- Whether it stays open and silent after that; otherwise it is closed. -/
  silent : Bool := false
  deriving DecidableEq, Repr

/-- A queue that holds some requests from the start. -/
def Inbox.ofRequests (requests : List Request) : Inbox := ⟨requests.map .request, false⟩

/-- The first request among some arrivals, however long it takes, and what comes after it. -/
def nextRequest : List Arrival → Option (Request × List Arrival)
  | [] => none
  | .request r :: rest => some (r, rest)
  | .pause :: rest => nextRequest rest
  | .lapse :: rest => nextRequest rest

end BoardConsole.Console
