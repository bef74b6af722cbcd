import BoardConsole.Link.Script
import BoardConsole.Proofs.Deeds
import Mathlib.Data.List.Basic

/-!
# What the console does with its requests

The servicer takes one request after another and does something about each.  A turn is a request and
the deeds that come of it; a transfer takes further requests within its turn.  The turns of a run
account for everything that it shows, puts on the link and takes from the queue, so what they say
about the order of things is what happened.

- `Turn`: one request handled.
- `Console.turns`: the turns of a run, first to last.
- `Console.runFor_accounts`: **the turns account for the run**.
- `Console.run_bytes`: **where the bytes from the target go**, and when some of them vanish.
-/

namespace BoardConsole.Console

open Transfer (Dialogue Port)

/-- One request handled by the servicer. -/
structure Turn where
  /-- The request, taken from the queue. -/
  request : Request
  /-- What is done about it, first to last. -/
  deeds : List Deed

/-- The deeds of a turn, of which taking the request is the first. -/
def Turn.all (t : Turn) : List Deed := .take t.request :: t.deeds

/-! ## The turns of a run -/

section

variable {σ : Type} [Link σ]

/-- The console's link and queue in the hands of a transfer. -/
def transferPort (c : Console σ) : TransferPort σ :=
  { link := c.link, pacing := c.pacing, inbox := c.inbox, log := c.log }

/-- The dialogue that sends a file. -/
def fileDialogue (protocol : Transfer.Protocol) (file : String) (data : Bytes) : Dialogue Unit :=
  .sendFile protocol ((Files.lastName? file).getD "") data

/-- The deeds of sending the contents of a file. -/
def sendDeeds (c : Console (Tap σ)) (protocol : Transfer.Protocol) (file : String)
    (data : Bytes) : List Deed :=
  let out := Port.run (fileDialogue protocol file data) c.transferPort
  [.emit (.line s!"Sending {file}, size {data.length}...")]
    ++ dialogueDeeds (fileDialogue protocol file data) c.transferPort
    ++ [.finish out.1 out.2.pending, .emit (.line (outcome out.1))]

/-- What is done about a request. -/
def deeds (files : Files) (c : Console (Tap σ)) : Request → List Deed
  | .keys bytes =>
    let out := writePaced c.pacing bytes c.link
    (out.2.traffic.toList.drop c.link.traffic.size).map .operate ++
      match out.1 with
      | .ok _ => []
      | .error fault => [.emit (c.writeFailure fault)]
  | .incoming bytes => [.emit (.console bytes)]
  | .send protocol file =>
    match files.read file with
    | .error fault => [.emit (.line s!"Could not open {file}: {fault.message}")]
    | .ok data =>
      c.sendDeeds protocol file data ++
        match (c.sendData protocol file data).1 with
        | none => []
        | some reason => [.emit (c.readFailure reason)]
  | .cancel => [.emit (.line "No transfer in progress!")]
  | .closed reason => [.emit (c.readFailure reason)]

/-- The turns of at most the given number of requests. -/
def turnsFor (files : Files) : Nat → Console (Tap σ) → List Turn
  | 0, _ => []
  | n + 1, c =>
    match nextRequest c.inbox.arrivals with
    | none => []
    | some (request, rest) =>
      ⟨request, deeds files { c with inbox.arrivals := rest } request⟩ ::
        match ({ c with inbox.arrivals := rest } : Console (Tap σ)).handle files request with
        | (true, c) => turnsFor files n c
        | (false, _) => []

/-- The turns of a run. -/
def turns (files : Files) (c : Console (Tap σ)) : List Turn :=
  turnsFor files (c.inbox.arrivals.length + 1) (c.emit c.greeting)

end

/-! ## They account for the run -/

section

variable {σ : Type}

/-- Deeds account for the queue, the link and the screen.  Every byte from the target, those held
before and those that arrive, reaches a transfer or the screen or is lost, in this order. -/
structure Accounts (held : Bytes) (c : Console (Tap σ)) (deeds : List Deed)
    (c' : Console (Tap σ)) : Prop where
  device : c'.device = c.device
  queue : c.inbox.requests = deeds.filterMap Deed.request? ++ c'.inbox.requests
  traffic : c'.link.traffic.toList = c.link.traffic.toList ++ deeds.filterMap Deed.operation?
  events : c'.events.toList = c.events.toList ++ deeds.filterMap Deed.event?
  bytes : held ++ deeds.flatMap Deed.arrived = deeds.flatMap fun d => d.delivered ++ d.lost

theorem Accounts.nil (c : Console (Tap σ)) : Accounts [] c [] c :=
  ⟨rfl, rfl, (List.append_nil _).symm, (List.append_nil _).symm, rfl⟩

theorem Accounts.append {held : Bytes} {c c₁ c₂ : Console (Tap σ)} {xs ys : List Deed}
    (h : Accounts held c xs c₁) (h' : Accounts [] c₁ ys c₂) : Accounts held c (xs ++ ys) c₂ := by
  have hbytes := h'.bytes
  rw [List.nil_append] at hbytes
  refine ⟨h'.device.trans h.device, ?_, ?_, ?_, ?_⟩
  · rw [h.queue, h'.queue, List.filterMap_append, List.append_assoc]
  · rw [h'.traffic, h.traffic, List.filterMap_append, List.append_assoc]
  · rw [h'.events, h.events, List.filterMap_append, List.append_assoc]
  · rw [List.flatMap_append, List.flatMap_append, ← List.append_assoc, h.bytes, hbytes]

/-- Something is shown that is not from the target. -/
theorem Accounts.emit (c : Console (Tap σ)) {event : Event}
    (h : (Deed.emit event).delivered = []) : Accounts [] c [.emit event] (c.emit event) := by
  refine ⟨rfl, rfl, (List.append_nil _).symm, Array.toList_push .., ?_⟩
  rw [List.flatMap_singleton, List.flatMap_singleton, h]
  rfl

/-- Something is done on the link. -/
theorem Accounts.operations (c : Console (Tap σ)) {link : Tap σ} {ops : List Operation}
    (h : link.traffic.toList = c.link.traffic.toList ++ ops) :
    Accounts [] c (ops.map .operate) { c with link } := by
  refine ⟨rfl, ?_, ?_, ?_, ?_⟩
  · rw [filterMap_of_kind (fun _ => rfl)]
    rfl
  · rw [operations_of_operates]
    exact h
  · rw [filterMap_of_kind (fun _ => rfl), List.append_nil]
  · rw [flatMap_of_kind (fun _ => rfl), flatMap_of_kind (fun _ => rfl)]
    rfl

/-- Where nothing is lost, everything is delivered. -/
theorem departed_of_unlost {deeds : List Deed} (h : deeds.flatMap Deed.lost = []) :
    (deeds.flatMap fun d => d.delivered ++ d.lost) = deeds.flatMap Deed.delivered := by
  refine List.flatMap_congr fun d hd => ?_
  rw [List.flatMap_eq_nil_iff.mp h d hd, List.append_nil]

/-- A queue without requests has none to take. -/
theorem nextRequest_eq_none {arrivals : List Arrival} (h : nextRequest arrivals = none) :
    arrivals.filterMap Arrival.request? = [] := by
  induction arrivals with
  | nil => rfl
  | cons arrival rest ih =>
    cases arrival with
    | request r => cases h
    | pause => exact ih h
    | lapse => exact ih h

/-- Requests are taken first to last. -/
theorem nextRequest_eq_some {arrivals rest : List Arrival} {r : Request}
    (h : nextRequest arrivals = some (r, rest)) :
    arrivals.filterMap Arrival.request? = r :: rest.filterMap Arrival.request? := by
  induction arrivals with
  | nil => cases h
  | cons arrival arrivals ih =>
    cases arrival with
    | request r' =>
      cases h
      rfl
    | pause => exact ih h
    | lapse => exact ih h

variable [Link σ]

/-- A transfer in terms of the dialogue that it is. -/
theorem sendData_eq (c : Console (Tap σ)) (protocol : Transfer.Protocol) (file : String)
    (data : Bytes) :
    let out := Port.run (fileDialogue protocol file data) c.transferPort
    ∃ log, c.sendData protocol file data = (out.2.closed,
      ⟨out.2.link, c.device, c.kind, out.2.pacing, out.2.inbox,
        (c.events.push (.line s!"Sending {file}, size {data.length}...")).push
          (.line (outcome out.1)), log⟩) :=
  ⟨_, rfl⟩

/-- Sending a file gives the transfer bytes, and loses those that it leaves unread. -/
theorem sendData_accounts (c : Console (Tap σ)) (protocol : Transfer.Protocol) (file : String)
    (data : Bytes) :
    Accounts [] c (c.sendDeeds protocol file data) (c.sendData protocol file data).2 := by
  obtain ⟨log, hsend⟩ := c.sendData_eq protocol file data
  have hrun := accounts_run (fileDialogue protocol file data) c.transferPort
  rw [hsend, sendDeeds]
  generalize Port.run (fileDialogue protocol file data) c.transferPort = out at hrun ⊢
  generalize dialogueDeeds (fileDialogue protocol file data) c.transferPort = ds at hrun ⊢
  refine ⟨rfl, ?_, ?_, ?_, ?_⟩
  · simp only [List.filterMap_append, List.append_assoc]
    exact hrun.queue
  · simp only [List.filterMap_append, List.append_assoc]
    exact hrun.traffic.trans (congrArg _ (List.append_nil _).symm)
  · simp only [List.filterMap_append, hrun.quiet, Array.toList_push, List.append_assoc]
    rfl
  · simp only [List.flatMap_append, departed_of_unlost hrun.unlost]
    have hbytes : [] ++ ds.flatMap Deed.arrived = ds.flatMap Deed.delivered ++ out.2.pending :=
      hrun.bytes
    simpa [Deed.arrived, Deed.delivered, Deed.lost] using hbytes

section

variable {files : Files} {file : String} {data : Bytes}

theorem handle_send (h : files.read file = .ok data) (c : Console (Tap σ))
    (protocol : Transfer.Protocol) :
    c.handle files (.send protocol file) = match c.sendData protocol file data with
      | (none, c) => (true, c)
      | (some reason, c) => (false, c.emit (c.readFailure reason)) := by
  have htransfer : c.transfer files protocol file = c.sendData protocol file data := by
    rw [transfer, h]
  rw [handle, htransfer]
  rcases c.sendData protocol file data with ⟨none | reason, c'⟩
  · rfl
  · rfl

theorem deeds_send (h : files.read file = .ok data) (c : Console (Tap σ))
    (protocol : Transfer.Protocol) :
    c.deeds files (.send protocol file) = c.sendDeeds protocol file data ++
      match (c.sendData protocol file data).1 with
      | none => []
      | some reason => [.emit (c.readFailure reason)] := by
  rw [deeds, h]

end

/-- What is done about a request that has been taken accounts for everything. -/
theorem handle_accounts (files : Files) (c : Console (Tap σ)) (r : Request) :
    Accounts r.payload c (c.deeds files r) (c.handle files r).2 := by
  cases r with
  | keys bytes =>
    obtain ⟨link, device, kind, pacing, inbox, events, log⟩ := c
    obtain ⟨ops, hops, -⟩ := writePaced_traffic pacing bytes link
    have hlink := Accounts.operations ⟨link, device, kind, pacing, inbox, events, log⟩ hops
    simp only [handle, deeds]
    rw [drop_traffic hops]
    generalize writePaced pacing bytes link = out at hlink ⊢
    obtain ⟨fault | _, link'⟩ := out
    · exact hlink.append (.emit _ rfl)
    · rw [List.append_nil]
      exact hlink
  | incoming bytes =>
    refine ⟨rfl, rfl, (List.append_nil _).symm, Array.toList_push .., ?_⟩
    show bytes ++ [] = bytes ++ [] ++ []
    rw [List.append_nil, List.append_nil]
  | send protocol file =>
    cases hread : files.read file with
    | error fault =>
      rw [handle, deeds, transfer, hread]
      exact .emit c rfl
    | ok data =>
      have hsend := c.sendData_accounts protocol file data
      rw [handle_send hread, deeds_send hread]
      generalize c.sendData protocol file data = out at hsend ⊢
      obtain ⟨none | reason, c'⟩ := out
      · rw [List.append_nil]
        exact hsend
      · -- a transfer does not change the name of the device
        have hfailure : c.readFailure reason = c'.readFailure reason := by
          rw [readFailure, readFailure, hsend.device]
        dsimp only
        rw [hfailure]
        exact hsend.append (.emit c' rfl)
  | cancel => exact .emit c rfl
  | closed reason => exact .emit c rfl

/-- A turn accounts for what has become of the console by the end of it. -/
theorem turn_accounts (files : Files) {c : Console (Tap σ)} {r : Request} {rest : List Arrival}
    (h : nextRequest c.inbox.arrivals = some (r, rest)) :
    Accounts [] c (Turn.all ⟨r, deeds files { c with inbox.arrivals := rest } r⟩)
      (handle files { c with inbox.arrivals := rest } r).2 := by
  have hhandle := handle_accounts files { c with inbox.arrivals := rest } r
  refine ⟨hhandle.device, ?_, hhandle.traffic, hhandle.events, hhandle.bytes⟩
  rw [Inbox.requests, nextRequest_eq_some h]
  exact congrArg (r :: ·) hhandle.queue

/-- **The turns account for the run.** -/
theorem runFor_accounts (files : Files) (n : Nat) (c : Console (Tap σ)) :
    Accounts [] c ((turnsFor files n c).flatMap Turn.all) (runFor files n c) := by
  induction n generalizing c with
  | zero => exact .nil c
  | succ n ih =>
    rw [turnsFor, runFor]
    cases hnext : nextRequest c.inbox.arrivals with
    | none =>
      refine ⟨rfl, ?_, (List.append_nil _).symm, (List.append_nil _).symm, rfl⟩
      rw [Inbox.requests, nextRequest_eq_none hnext]
      rfl
    | some taken =>
      obtain ⟨r, rest⟩ := taken
      have hturn := turn_accounts files hnext
      dsimp only
      generalize handle files { c with inbox.arrivals := rest } r = out at hturn ⊢
      obtain ⟨_ | _, c'⟩ := out
      · rw [List.flatMap_singleton]
        exact hturn
      · rw [List.flatMap_cons]
        exact hturn.append (ih c')

/-- A run is what its turns say, after the greeting. -/
theorem run_accounts (files : Files) (c : Console (Tap σ)) :
    Accounts [] (c.emit c.greeting) ((c.turns files).flatMap Turn.all) (c.run files) :=
  runFor_accounts files _ _

/-- After the greeting, a run shows what its turns show. -/
theorem run_events (files : Files) (c : Console (Tap σ)) :
    (c.run files).events.toList = c.events.toList
      ++ c.greeting :: ((c.turns files).flatMap Turn.all).filterMap Deed.event? := by
  have hgreeting : (c.emit c.greeting).events.toList = c.events.toList ++ [c.greeting] :=
    Array.toList_push ..
  rw [(c.run_accounts files).events, hgreeting, List.append_assoc]
  rfl

/-! ## Where the bytes from the target go -/

/-- Bytes are all delivered where none are lost, and nowhere else. -/
theorem departed_eq_delivered_iff (deeds : List Deed) :
    (deeds.flatMap fun d => d.delivered ++ d.lost) = deeds.flatMap Deed.delivered ↔
      deeds.flatMap Deed.lost = [] := by
  constructor
  · intro h
    -- what is lost makes the bytes that depart more than those that are delivered
    have hlength : (deeds.flatMap fun d => d.delivered ++ d.lost).length
        = (deeds.flatMap Deed.delivered).length + (deeds.flatMap Deed.lost).length := by
      clear h
      induction deeds with
      | nil => rfl
      | cons d deeds ih =>
        simp only [List.flatMap_cons, List.length_append, ih]
        omega
    rw [h] at hlength
    exact List.eq_nil_of_length_eq_zero (by omega)
  · exact departed_of_unlost

theorem lost_eq_nil_iff (deeds : List Deed) :
    deeds.flatMap Deed.lost = [] ↔ ∀ result unread, .finish result unread ∈ deeds → unread = [] := by
  rw [List.flatMap_eq_nil_iff]
  constructor
  · intro h result unread hmem
    exact h _ hmem
  · intro h d hd
    cases d with
    | finish result unread => exact h result unread hd
    | _ => rfl

/-- **Where the bytes from the target go.**  All bytes that arrive with the requests taken by a run,
by the servicer or by a transfer, are read by a transfer, shown, or left unread in a transfer that
ends, each byte once and in the order of arrival.  So bytes vanish exactly if some transfer ends
before it has read all that was taken in for it. -/
theorem run_bytes (files : Files) (c : Console (Tap σ)) :
    let deeds := (c.turns files).flatMap Turn.all
    (c.run files).events.toList
        = c.events.toList ++ c.greeting :: deeds.filterMap Deed.event? ∧
      c.inbox.requests = deeds.filterMap Deed.request? ++ (c.run files).inbox.requests ∧
      (deeds.flatMap Deed.arrived = deeds.flatMap fun d => d.delivered ++ d.lost) ∧
      (deeds.flatMap Deed.arrived = deeds.flatMap Deed.delivered ↔
        ∀ result unread, .finish result unread ∈ deeds → unread = []) := by
  intro deeds
  have h := c.run_accounts files
  have hbytes : deeds.flatMap Deed.arrived = deeds.flatMap fun d => d.delivered ++ d.lost := h.bytes
  refine ⟨c.run_events files, h.queue, hbytes, ?_⟩
  rw [hbytes, departed_eq_delivered_iff, lost_eq_nil_iff]

end

/-- The target answers the last frame of a file and says something more at once.  The transfer is
complete, and what was said after the answer is shown to nobody. -/
theorem run_bytes_after_file :
    let files : Files := ⟨[(["f"], .file [0x41])], []⟩
    let c : Console (Tap Script) :=
      { link := ⟨{}, #[]⟩, device := "tty", kind := .serial, pacing := ⟨0⟩
        inbox := .ofRequests
          [.send .xmodem "f", .incoming [0x43], .incoming [0x06, 0x06, 0x6F, 0x6B]] }
    let deeds := (c.turns files).flatMap Turn.all
    deeds.flatMap Deed.arrived = [0x43, 0x06, 0x06, 0x6F, 0x6B] ∧
      deeds.flatMap Deed.delivered = [0x43, 0x06, 0x06] ∧
      (c.run files).events.toList = [c.greeting, .line "Sending f, size 1...",
        .line "Transfer complete!"] := by
  intro files c
  have hnames : Files.names "f" = ["f"] := by
    rw [Files.names, String.splitOn, if_neg (by decide), String.splitOnAux, String.splitOnAux]
    decide +kernel
  have hslash : "f".endsWith "/" = false ∧ "f".startsWith "/" = false := by decide +kernel
  have hread : files.read "f" = .ok [0x41] := by
    rw [Files.read, Files.find, hnames, hslash.1, hslash.2]
    rfl
  rw [turns, turnsFor, run, runFor]
  dsimp only [c, Inbox.ofRequests, nextRequest, List.map, emit]
  rw [handle_send hread, deeds_send hread]
  decide +kernel

end BoardConsole.Console
