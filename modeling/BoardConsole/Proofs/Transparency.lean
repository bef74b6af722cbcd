import BoardConsole.Link.Script
import BoardConsole.Proofs.Deeds
import BoardConsole.Proofs.Run

/-!
# What a transfer sees of the queue

A transfer over the console link gets its bytes out of requests and drops the other requests.  Over
a link that takes every byte this is the same as a transfer over a port with the replies ready in
one piece: it does not matter how the bytes are spread over requests, what stands between them or
when they are taken in.

- `Port.Simulation`: ports of two kinds that a dialogue cannot tell apart.
- `CannedPort`: a port with its replies ready.
- `TransferPort.unread`: the bytes that a transfer has yet to read, in its hands or in the queue.
- `TransferPort.mirrors_simulation`: **the console link and a canned port with the unread bytes**.
- `TransferPort.sendFile_transparent`: what follows for every protocol.
-/

namespace BoardConsole

/-! ## Dialogues over two ports -/

namespace Transfer

/-- Ports of two kinds do the same with every intent, and go on doing so. -/
structure Port.Simulation {π ρ : Type} [Port π] [Port ρ] (R : π → ρ → Prop) : Prop where
  readByte : ∀ {p q}, R p q → (Port.readByte p).1 = (Port.readByte q).1 ∧
    R (Port.readByte p).2 (Port.readByte q).2
  write : ∀ {p q} (bytes), R p q → (Port.write p bytes).1 = (Port.write q bytes).1 ∧
    R (Port.write p bytes).2 (Port.write q bytes).2
  note : ∀ {p q} (record), R p q → R (Port.note p record) (Port.note q record)

/-- **A dialogue cannot tell the ports apart.** -/
theorem Port.Simulation.run {π ρ α : Type} [Port π] [Port ρ] {R : π → ρ → Prop}
    (sim : Port.Simulation R) {p : π} {q : ρ} (h : R p q) (d : Dialogue α) :
    (Port.run d p).1 = (Port.run d q).1 ∧ R (Port.run d p).2 (Port.run d q).2 := by
  induction d generalizing p q with
  | done a => exact ⟨rfl, h⟩
  | step intent next ih =>
    cases intent with
    | write bytes =>
      obtain ⟨hsame, hrest⟩ := sim.write bytes h
      rw [Port.run, Port.run]
      generalize Port.write p bytes = out at hsame hrest ⊢
      generalize Port.write q bytes = out' at hsame hrest ⊢
      obtain ⟨result, p'⟩ := out
      obtain ⟨result', q'⟩ := out'
      cases hsame
      cases result with
      | error fault => exact ⟨rfl, hrest⟩
      | ok _ => exact ih () hrest
    | read =>
      obtain ⟨hsame, hrest⟩ := sim.readByte h
      rw [Port.run, Port.run]
      generalize Port.readByte p = out at hsame hrest ⊢
      generalize Port.readByte q = out' at hsame hrest ⊢
      obtain ⟨result, p'⟩ := out
      obtain ⟨result', q'⟩ := out'
      cases hsame
      cases result with
      | error fault => exact ⟨rfl, hrest⟩
      | ok b => exact ih b hrest
    | note record => exact ih () (sim.note record h)
    | fail failure => exact ⟨rfl, h⟩

/-- A port with its replies ready that takes whatever is written.  When there are no more replies,
nothing comes in time. -/
structure CannedPort where
  /-- The replies yet to be read. -/
  replies : Bytes
  /-- What has been written. -/
  written : Bytes := []
  deriving DecidableEq, Repr

namespace CannedPort

/-- The next reply. -/
def readByte (p : CannedPort) : Except Fault UInt8 × CannedPort :=
  match p.replies with
  | [] => (.error .timeout, p)
  | b :: rest => (.ok b, { p with replies := rest })

/-- Bytes taken. -/
def write (p : CannedPort) (bytes : Bytes) : Except Fault Unit × CannedPort :=
  (.ok (), { p with written := p.written ++ bytes })

instance : Port CannedPort where
  readByte := readByte
  write := write
  note p _ := p

theorem readByte_of_nil {p : CannedPort} (h : p.replies = []) : p.readByte = (.error .timeout, p) := by
  rw [readByte, h]

theorem readByte_of_cons {p : CannedPort} {b : UInt8} {rest : Bytes} (h : p.replies = b :: rest) :
    p.readByte = (.ok b, { p with replies := rest }) := by
  rw [readByte, h]

theorem readByte_written (p : CannedPort) : p.readByte.2.written = p.written := by
  unfold readByte
  split <;> rfl

end CannedPort

end Transfer

/-! ## Links that take every byte -/

/-- The link takes every byte that is written to it, whatever has been written and waited for
before. -/
def Link.Accepts {σ : Type} [Link σ] (link : σ) : Prop :=
  ∃ P : σ → Prop, P link ∧ ∀ l, P l →
    (∀ b, (Link.write l [b]).1.isOk = true ∧ P (Link.write l [b]).2) ∧
    ∀ micros, P (Link.delay l micros)

/-- A script in which no writes fail. -/
theorem Script.accepts {link : Script} (h : link.failing.2 = 0) : Link.Accepts link := by
  refine ⟨fun l => l.failing.2 = 0, h, fun l hl => ⟨fun b => ⟨?_, hl⟩, fun _ => hl⟩⟩
  have hrefuses : l.refuses = false := by
    rw [Script.refuses, hl, Bool.and_eq_false_iff, decide_eq_false_iff_not, decide_eq_false_iff_not]
    omega
  show (l.write [b]).1.isOk = true
  rw [Script.write, hrefuses]
  rfl

namespace Tap

variable {σ : Type} [Link σ]

/-- Bytes that are taken have been put on the wire. -/
theorem sent_write (t : Tap σ) (bs : Bytes) (h : (Link.write t.link bs).1.isOk = true) :
    (Link.write t bs).2.sent = t.sent ++ bs := by
  have hsent : Operation.sent (.write bs (Link.write t.link bs).1.isOk) = bs := by rw [h]; rfl
  show ((t.traffic.push _).toList).flatMap Operation.sent = _
  rw [Array.toList_push, List.flatMap_append, List.flatMap_singleton]
  exact congrArg (t.sent ++ ·) hsent

/-- Waiting puts nothing on the wire. -/
theorem sent_delay (t : Tap σ) (micros : Nat) : (Link.delay t micros).sent = t.sent := by
  show ((t.traffic.push _).toList).flatMap Operation.sent = _
  rw [Array.toList_push, List.flatMap_append, List.flatMap_singleton]
  exact List.append_nil _

end Tap

namespace Console

open Transfer (CannedPort Dialogue Port Protocol)

/-- Nothing but bytes and requests that a transfer drops, none of them late. -/
def Arrival.passive : Arrival → Bool
  | .request r => r.fault?.isNone
  | .pause => true
  | .lapse => false

namespace TransferPort

variable {σ : Type}

/-- The bytes that arrive with a queue. -/
def payloads (arrivals : List Arrival) : Bytes :=
  (arrivals.filterMap Arrival.request?).flatMap Request.payload

/-- The bytes yet to be read: those taken in and those that arrive with the queue. -/
def unread (p : TransferPort σ) : Bytes := p.pending ++ payloads p.inbox.arrivals

theorem payloads_request (r : Request) (rest : List Arrival) :
    payloads (.request r :: rest) = r.payload ++ payloads rest := rfl

/-! ## Taking requests in -/

/-- What is left of a port after some arrivals have been looked at: the link is as it was, and so
are the arrivals that have not been taken. -/
structure Leaves (p : TransferPort σ) (arrivals : List Arrival) (p' : TransferPort σ) : Prop where
  link : p'.link = p.link
  silent : p'.inbox.silent = p.inbox.silent
  arrivals : p'.inbox.arrivals <:+ arrivals

theorem accept_inbox (p : TransferPort σ) (r : Request) : (p.accept r).2.inbox = p.inbox := by
  cases r <;> rfl

theorem Leaves.cons {p p' : TransferPort σ} {r : Request} {rest : List Arrival}
    (h : Leaves (p.accept r).2 rest p') : Leaves p (.request r :: rest) p' := by
  refine ⟨h.link.trans (p.accept_spec r).1, ?_, h.arrivals.trans (List.suffix_cons _ _)⟩
  rw [h.silent, p.accept_inbox r]

/-- Bytes that have been taken in are still to be read. -/
theorem accept_unread (p : TransferPort σ) (r : Request) (rest : List Arrival) :
    (p.accept r).2.pending ++ payloads rest = p.pending ++ payloads (.request r :: rest) := by
  rw [(p.accept_spec r).2.1, payloads_request, List.append_assoc]

theorem fault?_of_passive {r : Request} {rest : List Arrival}
    (h : ∀ a ∈ Arrival.request r :: rest, a.passive = true) : r.fault? = none :=
  Option.isNone_iff_eq_none.mp (h _ List.mem_cons_self)

/-- Taking in what is queued loses no byte. -/
theorem takeQueued_passive (p : TransferPort σ) {arrivals : List Arrival}
    (h : ∀ a ∈ arrivals, a.passive = true) :
    (p.takeQueued arrivals).1 = .ok () ∧ Leaves p arrivals (p.takeQueued arrivals).2 ∧
      (p.takeQueued arrivals).2.unread = p.pending ++ payloads arrivals := by
  induction arrivals generalizing p with
  | nil => exact ⟨rfl, ⟨rfl, rfl, List.suffix_rfl⟩, rfl⟩
  | cons arrival rest ih =>
    cases arrival with
    | pause => exact ⟨rfl, ⟨rfl, rfl, List.suffix_cons _ _⟩, rfl⟩
    | lapse => exact absurd (h _ List.mem_cons_self) Bool.false_ne_true
    | request r =>
      have hrest : ∀ a ∈ rest, a.passive = true := fun a ha => h a (List.mem_cons_of_mem _ ha)
      obtain ⟨hok, hleaves, hunread⟩ := ih (p.accept r).2 hrest
      rw [takeQueued, p.accept_ok (fault?_of_passive h)]
      exact ⟨hok, hleaves.cons, hunread.trans (p.accept_unread r rest)⟩

/-- The byte that is waited for is the first one yet to be read, wherever it is. -/
theorem awaitByte_passive (p : TransferPort σ) {arrivals : List Arrival} {q : CannedPort}
    (h : ∀ a ∈ arrivals, a.passive = true) (hsilent : p.inbox.silent = true)
    (hq : p.pending ++ payloads arrivals = q.replies) :
    (p.awaitByte arrivals).1 = q.readByte.1 ∧ Leaves p arrivals (p.awaitByte arrivals).2 ∧
      (p.awaitByte arrivals).2.unread = q.readByte.2.replies := by
  induction arrivals generalizing p with
  | nil =>
    obtain ⟨link, pacing, inbox, pending, closed, log⟩ := p
    cases pending with
    | nil =>
      have htimeout : (⟨link, pacing, inbox, [], closed, log⟩ : TransferPort σ).atEnd = .timeout :=
        if_pos hsilent
      rw [CannedPort.readByte_of_nil hq.symm]
      exact ⟨congrArg Except.error htimeout, ⟨rfl, rfl, List.suffix_rfl⟩, hq⟩
    | cons b pending =>
      rw [CannedPort.readByte_of_cons hq.symm]
      exact ⟨rfl, ⟨rfl, rfl, List.suffix_rfl⟩, rfl⟩
  | cons arrival rest ih =>
    cases hpending : p.pending with
    | cons b pending =>
      obtain ⟨link, pacing, inbox, pending, closed, log⟩ := p
      cases hpending
      rw [CannedPort.readByte_of_cons hq.symm]
      exact ⟨rfl, ⟨rfl, rfl, List.suffix_rfl⟩, rfl⟩
    | nil =>
      have hrest : ∀ a ∈ rest, a.passive = true := fun a ha => h a (List.mem_cons_of_mem _ ha)
      cases arrival with
      | pause =>
        obtain ⟨hsame, hleaves, hunread⟩ := ih p hrest hsilent hq
        rw [awaitByte, hpending]
        exact ⟨hsame, ⟨hleaves.link, hleaves.silent, hleaves.arrivals.trans (List.suffix_cons _ _)⟩,
          hunread⟩
      | lapse => exact absurd (h _ List.mem_cons_self) Bool.false_ne_true
      | request r =>
        have hstill : (p.accept r).2.inbox.silent = true := by rw [p.accept_inbox r, hsilent]
        obtain ⟨hsame, hleaves, hunread⟩ :=
          ih (p.accept r).2 hrest hstill ((p.accept_unread r rest).trans hq)
        rw [awaitByte, hpending]
        dsimp only
        rw [p.accept_ok (fault?_of_passive h)]
        exact ⟨hsame, hleaves.cons, hunread⟩

/-! ## Writing -/

/-- Bytes written one by one are all taken. -/
theorem writePaced_accepts [Link σ] (pacing : Pacing) (bytes : Bytes) {t : Tap σ}
    (h : Link.Accepts t.link) :
    (writePaced pacing bytes t).1 = .ok () ∧ Link.Accepts (writePaced pacing bytes t).2.link ∧
      (writePaced pacing bytes t).2.sent = t.sent ++ bytes := by
  obtain ⟨P, ht, haccepts⟩ := h
  induction bytes generalizing t with
  | nil => exact ⟨rfl, ⟨P, ht, haccepts⟩, (List.append_nil _).symm⟩
  | cons b bytes ih =>
    have hfirst : (Link.write t [b]).1.isOk = true := ((haccepts _ ht).1 b).1
    have hP : P (Link.write t [b]).2.link := ((haccepts _ ht).1 b).2
    have hsent := t.sent_write [b] hfirst
    rw [writePaced]
    generalize Link.write t [b] = out at hfirst hP hsent ⊢
    obtain ⟨fault | count, t'⟩ := out
    · cases hfirst
    · have happend : t'.sent ++ bytes = t.sent ++ b :: bytes := by
        rw [hsent, List.append_assoc]
        rfl
      cases pacing.charDelay with
      | none =>
        obtain ⟨hall, hstill, hrest⟩ := ih hP
        exact ⟨hall, hstill, hrest.trans happend⟩
      | some micros =>
        have hdelayed : P (Link.delay t' micros).link := (haccepts _ hP).2 micros
        obtain ⟨hall, hstill, hrest⟩ := ih hdelayed
        exact ⟨hall, hstill, (hrest.trans (by rw [t'.sent_delay])).trans happend⟩

/-! ## The console link and a canned port -/

/-- The canned port has the bytes yet to be read as its replies, and has been written what has been
put on the wire since some bytes. -/
structure Mirrors [Link σ] (before : Bytes) (p : TransferPort (Tap σ)) (q : CannedPort) : Prop where
  accepts : Link.Accepts p.link.link
  passive : ∀ a ∈ p.inbox.arrivals, a.passive = true
  silent : p.inbox.silent = true
  unread : p.unread = q.replies
  sent : p.link.sent = before ++ q.written

namespace Mirrors

variable [Link σ] {before : Bytes} {p : TransferPort (Tap σ)} {q : CannedPort}

/-- A reply is the first byte yet to be read. -/
theorem readByte (h : Mirrors before p q) :
    p.readByte.1 = q.readByte.1 ∧ Mirrors before p.readByte.2 q.readByte.2 := by
  obtain ⟨hsame, hleaves, hunread⟩ := p.awaitByte_passive h.passive h.silent h.unread
  have hlink : p.readByte.2.link = p.link := hleaves.link
  refine ⟨hsame, ?_, fun a ha => h.passive a (hleaves.arrivals.subset ha),
    hleaves.silent.trans h.silent, hunread, ?_⟩
  · rw [hlink]
    exact h.accepts
  · rw [hlink, q.readByte_written, h.sent]

/-- What is written is put on the wire. -/
theorem write (h : Mirrors before p q) (bytes : Bytes) :
    (p.write bytes).1 = .ok () ∧ Mirrors before (p.write bytes).2 (q.write bytes).2 := by
  obtain ⟨hok, hleaves, hunread⟩ := p.takeQueued_passive h.passive
  rw [TransferPort.write]
  generalize p.takeQueued p.inbox.arrivals = out at hok hleaves hunread ⊢
  obtain ⟨fault | done, p₁⟩ := out
  · cases hok
  · have hlink : p₁.link = p.link := hleaves.link
    obtain ⟨log, hlog⟩ := p₁.remarkAll_eq bytes
    obtain ⟨hall, haccepts, hsent⟩ := writePaced_accepts p₁.pacing bytes (hlink ▸ h.accepts)
    dsimp only
    rw [hlog]
    refine ⟨hall, haccepts, fun a ha => h.passive a (hleaves.arrivals.subset ha),
      hleaves.silent.trans h.silent, hunread.trans h.unread, ?_⟩
    rw [hlink, h.sent, List.append_assoc] at hsent
    rw [hlink]
    exact hsent

end Mirrors

/-- **The console link is a canned port with the bytes yet to be read as its replies.** -/
theorem mirrors_simulation [Link σ] (before : Bytes) :
    Port.Simulation (Mirrors before : TransferPort (Tap σ) → CannedPort → Prop) where
  readByte h := h.readByte
  write bytes h := h.write bytes
  note _ h := ⟨h.accepts, h.passive, h.silent, h.unread, h.sent⟩

/-- **A transfer sees nothing but the bytes.**  Over a link that takes every byte, and with a queue
of bytes and of requests that a transfer drops, that stays silent after them, every protocol ends
as over a canned port whose replies are the bytes of the queue in one piece.  It puts on the wire
what it writes there, and it leaves the same bytes unread. -/
theorem sendFile_transparent [Link σ] (protocol : Protocol) (name : String) (data : Bytes)
    (p : TransferPort (Tap σ)) (hlink : Link.Accepts p.link.link)
    (hqueue : ∀ a ∈ p.inbox.arrivals, a.passive = true) (hsilent : p.inbox.silent = true) :
    let out := Port.run (Dialogue.sendFile protocol name data) p
    let canned := Port.run (Dialogue.sendFile protocol name data) (⟨p.unread, []⟩ : CannedPort)
    out.1 = canned.1 ∧ out.2.link.sent = p.link.sent ++ canned.2.written ∧
      out.2.unread = canned.2.replies := by
  have hstart : Mirrors p.link.sent p ⟨p.unread, []⟩ :=
    ⟨hlink, hqueue, hsilent, rfl, (List.append_nil _).symm⟩
  obtain ⟨hsame, hend⟩ := (mirrors_simulation _).run hstart (.sendFile protocol name data)
  exact ⟨hsame, hend.sent, hend.unread⟩

/-- Replies that come in odd pieces, with keys and another file to send between them. -/
theorem sendFile_transparent_pieces :
    let arrivals : List Arrival := [.request (.incoming [0x43, 0x06]), .request (.keys [0x78]), .pause,
      .request (.send .ascii "g"), .request (.incoming []), .pause, .request (.incoming [0x06])]
    let p : TransferPort (Tap Script) :=
      { link := ⟨{}, #[]⟩, pacing := ⟨0⟩, inbox := ⟨arrivals, true⟩ }
    let out := Port.run (Dialogue.sendFile .xmodem "f" [0x41]) p
    let canned := Port.run (Dialogue.sendFile .xmodem "f" [0x41])
      (⟨[0x43, 0x06, 0x06], []⟩ : CannedPort)
    out.1.isOk = true ∧ out.1 = canned.1 ∧ out.2.link.sent = canned.2.written := by
  intro arrivals p out canned
  obtain ⟨hsame, hsent, -⟩ := sendFile_transparent .xmodem "f" [0x41] p (Script.accepts rfl)
    (by decide) rfl
  exact ⟨by decide +kernel, hsame, hsent⟩

end TransferPort

end Console

end BoardConsole
