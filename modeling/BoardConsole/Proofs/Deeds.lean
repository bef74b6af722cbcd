import BoardConsole.Console.Servicer
import BoardConsole.Link.Tap

/-!
# What a transfer does to the console

A transfer takes over the queue and the link of the console.  All that it does there is a list of
deeds: requests taken, operations on the link, bytes given to the sender.  What one operation of the
port does is read off the states before and after it, so nothing is left out.

- `Deed`: one thing that the servicer or a transfer does.
- `Heeds`: a request that ends a transfer is the last thing that the transfer does.
- `TransferPort.Accounts`: deeds account for the queue, the link and the bytes that came in.
- `Dialogue.accounts_run`: **the deeds of a transfer account for everything** and heed every request.
-/

namespace BoardConsole.Console

open Transfer (Dialogue Failure Port)

/-! ## Requests -/

namespace Request

/-- The bytes that a request brings from the target. -/
def payload : Request → Bytes
  | .incoming bytes => bytes
  | _ => []

/-- How a request ends a transfer, if it does. -/
def fault? : Request → Option Fault
  | .cancel => some .cancelled
  | .closed reason => some (.io reason)
  | _ => none

/-- Why nothing more will come in, if that is what a request says. -/
def reason? : Request → Option String
  | .closed reason => some reason
  | _ => none

theorem reason?_of_fault? {r : Request} (h : r.fault? = none) : r.reason? = none := by
  cases r with
  | closed reason => cases h
  | _ => rfl

end Request

/-- The request that has arrived, if it is one. -/
def Arrival.request? : Arrival → Option Request
  | .request r => some r
  | _ => none

/-- The requests of a queue, first to last. -/
def Inbox.requests (inbox : Inbox) : List Request := inbox.arrivals.filterMap Arrival.request?

/-! ## Deeds -/

/-- One thing that is done to the console. -/
inductive Deed
  /-- A request is taken from the queue. -/
  | take (request : Request)
  /-- Something is done on the link. -/
  | operate (operation : Operation)
  /-- A transfer is given a byte. -/
  | give (b : UInt8)
  /-- A transfer ends, with bytes that were taken in for it and that it has not read. -/
  | finish (result : Except Failure Unit) (unread : Bytes)
  /-- Something is shown. -/
  | emit (event : Event)

namespace Deed

/-- The request that is taken. -/
def request? : Deed → Option Request
  | .take r => some r
  | _ => none

/-- What is done on the link. -/
def operation? : Deed → Option Operation
  | .operate operation => some operation
  | _ => none

/-- What is shown. -/
def event? : Deed → Option Event
  | .emit event => some event
  | _ => none

/-- The bytes from the target that arrive. -/
def arrived : Deed → Bytes
  | .take r => r.payload
  | _ => []

/-- The bytes from the target that reach a transfer or the screen. -/
def delivered : Deed → Bytes
  | .give b => [b]
  | .emit (.console bytes) => bytes
  | _ => []

/-- The bytes from the target that nobody will see. -/
def lost : Deed → Bytes
  | .finish _ unread => unread
  | _ => []

end Deed

/-! ### Deeds of one kind -/

section

variable {ι β : Type} {kind : ι → Deed}

theorem filterMap_of_kind {f : Deed → Option β} (h : ∀ i, f (kind i) = none) (xs : List ι) :
    (xs.map kind).filterMap f = [] := by
  rw [List.filterMap_map]
  exact List.filterMap_eq_nil_iff.mpr fun i _ => h i

theorem flatMap_of_kind {f : Deed → Bytes} (h : ∀ i, f (kind i) = []) (xs : List ι) :
    (xs.map kind).flatMap f = [] := by
  rw [List.flatMap_map]
  exact List.flatMap_eq_nil_iff.mpr fun i _ => h i

theorem requests_of_takes (requests : List Request) :
    (requests.map Deed.take).filterMap Deed.request? = requests := by
  rw [List.filterMap_map]
  exact List.filterMap_some

theorem operations_of_operates (ops : List Operation) :
    (ops.map Deed.operate).filterMap Deed.operation? = ops := by
  rw [List.filterMap_map]
  exact List.filterMap_some

end

/-! ## Requests that end a transfer -/

/-- No request that ends a transfer is taken. -/
def Calm (deeds : List Deed) : Prop := ∀ r, .take r ∈ deeds → r.fault? = none

theorem Calm.append {xs ys : List Deed} (hx : Calm xs) (hy : Calm ys) : Calm (xs ++ ys) := by
  intro r hr
  rcases List.mem_append.mp hr with h | h
  · exact hx r h
  · exact hy r h

/-- A request that ends a transfer is the last thing that is done.  It fails in its own way, and its
reason, if it has one, is kept. -/
inductive Heeds (closed : Option String) (fails : Fault → Prop) :
    List Deed → Option String → Prop
  /-- There was none. -/
  | calm {deeds : List Deed} (h : Calm deeds) : Heeds closed fails deeds closed
  /-- There was one. -/
  | called {deeds : List Deed} {r : Request} {fault : Fault} (h : Calm deeds)
    (hr : r.fault? = some fault) (hf : fails fault) :
    Heeds closed fails (deeds ++ [.take r]) (r.reason?.or closed)

namespace Heeds

variable {closed closed' : Option String} {fails fails' : Fault → Prop} {xs ys : List Deed}

theorem append (hx : Calm xs) (h : Heeds closed fails ys closed') :
    Heeds closed fails (xs ++ ys) closed' := by
  cases h with
  | calm hy => exact .calm (hx.append hy)
  | called hy hr hf =>
    rw [← List.append_assoc]
    exact .called (hx.append hy) hr hf

theorem mono (h : Heeds closed fails xs closed') (himp : ∀ fault, fails fault → fails' fault) :
    Heeds closed fails' xs closed' := by
  cases h with
  | calm hx => exact .calm hx
  | called hx hr hf => exact .called hx hr (himp _ hf)

/-- What does not fail has taken no request that ends it. -/
theorem calm_of_never (h : Heeds closed fails xs closed') (hnever : ∀ fault, ¬ fails fault) :
    Calm xs ∧ closed' = closed := by
  cases h with
  | calm hx => exact ⟨hx, rfl⟩
  | called hx hr hf => exact absurd hf (hnever _)

end Heeds

/-! ## One operation of the port -/

/-- What has been added to the traffic is what stands after the traffic that was there. -/
theorem drop_traffic {σ : Type} {t t' : Tap σ} {ops : List Operation}
    (h : t'.traffic.toList = t.traffic.toList ++ ops) :
    t'.traffic.toList.drop t.traffic.size = ops := by
  rw [h, ← Array.length_toList, List.drop_left]

/-- Pieces written one after another are added to the traffic, and a failure is one of them. -/
theorem writePaced_traffic {σ : Type} [Link σ] (pacing : Pacing) (bytes : Bytes) (t : Tap σ) :
    ∃ ops, (writePaced pacing bytes t).2.traffic.toList = t.traffic.toList ++ ops ∧
      ((∃ fault, (writePaced pacing bytes t).1 = .error fault) ↔
        ∃ refused, Operation.write refused false ∈ ops) := by
  induction bytes generalizing t with
  | nil =>
    refine ⟨[], (List.append_nil _).symm, ?_⟩
    constructor
    · rintro ⟨fault, h⟩
      cases h
    · rintro ⟨refused, h⟩
      cases h
  | cons b bytes ih =>
    obtain ⟨link, traffic⟩ := t
    simp only [writePaced, Link.write, Tap.write]
    rcases Link.write link [b] with ⟨fault | count, link⟩
    · refine ⟨[.write [b] false], Array.toList_push .., ?_⟩
      exact iff_of_true ⟨fault, rfl⟩ ⟨[b], List.mem_singleton.mpr rfl⟩
    · cases pacing.charDelay with
      | none =>
        obtain ⟨ops, hops, hfail⟩ := ih ⟨link, traffic.push (.write [b] true)⟩
        refine ⟨.write [b] true :: ops, hops.trans ?_, hfail.trans ?_⟩
        · simp
        · simp
      | some micros =>
        obtain ⟨ops, hops, hfail⟩ := ih ⟨Link.delay link micros,
          (traffic.push (.write [b] true)).push (.delay micros)⟩
        refine ⟨.write [b] true :: .delay micros :: ops, hops.trans ?_, hfail.trans ?_⟩
        · simp
        · simp

namespace TransferPort

section

variable {σ : Type}

/-- What a request that is taken in does to the port. -/
theorem accept_spec (p : TransferPort σ) (r : Request) :
    (p.accept r).2.link = p.link ∧ (p.accept r).2.pending = p.pending ++ r.payload ∧
      (p.accept r).2.closed = r.reason?.or p.closed := by
  cases r with
  | incoming bytes => exact ⟨rfl, rfl, rfl⟩
  | _ => exact ⟨rfl, (List.append_nil _).symm, rfl⟩

theorem accept_ok (p : TransferPort σ) {r : Request} (hr : r.fault? = none) :
    p.accept r = (.ok (), (p.accept r).2) := by
  cases r with
  | cancel => cases hr
  | closed reason => cases hr
  | _ => rfl

theorem accept_error (p : TransferPort σ) {r : Request} {fault : Fault}
    (hr : r.fault? = some fault) : p.accept r = (.error fault, (p.accept r).2) := by
  cases r with
  | cancel =>
    cases hr
    rfl
  | closed reason =>
    cases hr
    rfl
  | _ => cases hr

/-- Some of the requests that were queued have been taken in: the bytes that came with them have been
given or are waiting, and the first request that ends a transfer was heeded. -/
structure Took (p : TransferPort σ) (queued taken : List Request) (fails : Fault → Prop)
    (given : Bytes) (p' : TransferPort σ) : Prop where
  link : p'.link = p.link
  queue : queued = taken ++ p'.inbox.requests
  bytes : p.pending ++ taken.flatMap Request.payload = given ++ p'.pending
  heeds : Heeds p.closed fails (taken.map .take) p'.closed

variable {p p' : TransferPort σ} {r : Request} {queued taken : List Request}
  {fails : Fault → Prop} {given : Bytes}

/-- A request that does not end the transfer, and what comes after it. -/
theorem Took.cons (hr : r.fault? = none) (h : Took (p.accept r).2 queued taken fails given p') :
    Took p (r :: queued) (r :: taken) fails given p' := by
  obtain ⟨hlink, hpending, hclosed⟩ := p.accept_spec r
  have hcalm : Calm [.take r] := by
    intro r' hr'
    cases List.mem_singleton.mp hr'
    exact hr
  have hsame : (p.accept r).2.closed = p.closed := by
    rw [hclosed, Request.reason?_of_fault? hr]
    rfl
  have hheeds := h.heeds
  rw [hsame] at hheeds
  refine ⟨h.link.trans hlink, ?_, ?_, hheeds.append hcalm⟩
  · rw [h.queue]
    rfl
  · rw [← h.bytes, hpending, List.append_assoc]
    rfl

/-- A request that ends the transfer is the last that is taken in. -/
theorem Took.called {fault : Fault} (hr : r.fault? = some fault) (hf : fails fault)
    (rest : List Arrival) :
    Took p (r :: rest.filterMap Arrival.request?) [r] fails []
      ((p.accept r).2.withArrivals rest) := by
  obtain ⟨hlink, hpending, hclosed⟩ := p.accept_spec r
  refine ⟨hlink, rfl, ?_, ?_⟩
  · show p.pending ++ (r.payload ++ []) = (p.accept r).2.pending
    rw [hpending, List.append_nil]
  · show Heeds p.closed fails ([] ++ [.take r]) (p.accept r).2.closed
    rw [hclosed]
    exact .called nofun hr hf

/-- Nothing was taken in. -/
theorem Took.nil (p : TransferPort σ) (rest : List Arrival) (fails : Fault → Prop) :
    Took p (rest.filterMap Arrival.request?) [] fails [] (p.withArrivals rest) :=
  ⟨rfl, rfl, List.append_nil _, .calm nofun⟩

/-- Before anything is written, whatever is queued is taken in. -/
theorem takeQueued_took (p : TransferPort σ) (arrivals : List Arrival) :
    ∃ taken, Took p (arrivals.filterMap Arrival.request?) taken
      (fun fault => (p.takeQueued arrivals).1 = .error fault) [] (p.takeQueued arrivals).2 := by
  induction arrivals generalizing p with
  | nil => exact ⟨[], .nil p [] _⟩
  | cons arrival rest ih =>
    cases arrival with
    | pause => exact ⟨[], .nil p rest _⟩
    | lapse => exact ⟨[], .nil p rest _⟩
    | request r =>
      cases hr : r.fault? with
      | none =>
        rw [takeQueued, p.accept_ok hr]
        obtain ⟨taken, h⟩ := ih (p.accept r).2
        exact ⟨r :: taken, h.cons hr⟩
      | some fault =>
        rw [takeQueued, p.accept_error hr]
        refine ⟨[r], .called hr ?_ rest⟩
        rfl

/-- The byte that was waited for. -/
def gotten : Except Fault UInt8 → Bytes
  | .ok b => [b]
  | .error _ => []

/-- While a byte is waited for, requests are taken in one by one. -/
theorem awaitByte_took (p : TransferPort σ) (arrivals : List Arrival) :
    ∃ taken, Took p (arrivals.filterMap Arrival.request?) taken
      (fun fault => (p.awaitByte arrivals).1 = .error fault) (gotten (p.awaitByte arrivals).1)
      (p.awaitByte arrivals).2 := by
  induction arrivals generalizing p with
  | nil =>
    obtain ⟨link, pacing, inbox, pending, closed, log⟩ := p
    cases pending with
    | nil => exact ⟨[], .nil _ [] _⟩
    | cons b rest => exact ⟨[], rfl, rfl, List.append_nil _, .calm nofun⟩
  | cons arrival rest ih =>
    obtain ⟨link, pacing, inbox, pending, closed, log⟩ := p
    cases pending with
    | cons b pending =>
      -- a byte that is held is given before the queue is looked at
      exact ⟨[], rfl, rfl, List.append_nil _, .calm nofun⟩
    | nil =>
      cases arrival with
      | pause => exact ih ⟨link, pacing, inbox, [], closed, log⟩
      | lapse => exact ⟨[], .nil _ rest _⟩
      | request r =>
        generalize hp : (⟨link, pacing, inbox, [], closed, log⟩ : TransferPort σ) = p
        have hpending : p.pending = [] := by rw [← hp]
        cases hr : r.fault? with
        | none =>
          rw [awaitByte, hpending]
          dsimp only
          rw [p.accept_ok hr]
          obtain ⟨taken, h⟩ := ih (p.accept r).2
          exact ⟨r :: taken, h.cons hr⟩
        | some fault =>
          rw [awaitByte, hpending]
          dsimp only
          rw [p.accept_error hr]
          refine ⟨[r], .called hr ?_ rest⟩
          rfl

end

/-! ## Deeds account for everything -/

section

variable {σ : Type}

/-- What has been done to the port, by its states before and after: requests are taken first. -/
def since (p p' : TransferPort (Tap σ)) : List Deed :=
  (p.inbox.requests.take (p.inbox.requests.length - p'.inbox.requests.length)).map .take
    ++ (p'.link.traffic.toList.drop p.link.traffic.size).map .operate

theorem since_eq {p p' : TransferPort (Tap σ)} {taken : List Request} {ops : List Operation}
    (hqueue : p.inbox.requests = taken ++ p'.inbox.requests)
    (htraffic : p'.link.traffic.toList = p.link.traffic.toList ++ ops) :
    p.since p' = taken.map .take ++ ops.map .operate := by
  have htaken : p.inbox.requests.take (p.inbox.requests.length - p'.inbox.requests.length)
      = taken := by
    rw [hqueue, List.length_append, Nat.add_sub_cancel, List.take_left]
  rw [since, htaken, drop_traffic htraffic]

/-- Deeds account for the queue, for the link and for the bytes that came in.  Nothing is shown. -/
structure Accounts (p : TransferPort (Tap σ)) (fails : Fault → Prop) (deeds : List Deed)
    (p' : TransferPort (Tap σ)) : Prop where
  queue : p.inbox.requests = deeds.filterMap Deed.request? ++ p'.inbox.requests
  traffic : p'.link.traffic.toList = p.link.traffic.toList ++ deeds.filterMap Deed.operation?
  bytes : p.pending ++ deeds.flatMap Deed.arrived = deeds.flatMap Deed.delivered ++ p'.pending
  quiet : deeds.filterMap Deed.event? = []
  unlost : deeds.flatMap Deed.lost = []
  heeds : Heeds p.closed fails deeds p'.closed

namespace Accounts

variable {p p₁ p₂ : TransferPort (Tap σ)} {fails : Fault → Prop} {xs ys : List Deed}

theorem nil (p : TransferPort (Tap σ)) (fails : Fault → Prop) : Accounts p fails [] p :=
  ⟨rfl, (List.append_nil _).symm, List.append_nil _, rfl, rfl, .calm nofun⟩

/-- One part of a transfer that does not fail, and another after it. -/
theorem append (h : Accounts p (fun _ => False) xs p₁) (h' : Accounts p₁ fails ys p₂) :
    Accounts p fails (xs ++ ys) p₂ := by
  -- the first part did not fail, so it has taken no request that ends a transfer
  obtain ⟨hcalm, hclosed⟩ := h.heeds.calm_of_never fun _ hf => hf
  refine ⟨?_, ?_, ?_, ?_, ?_, ?_⟩
  · rw [h.queue, h'.queue, List.filterMap_append, List.append_assoc]
  · rw [h'.traffic, h.traffic, List.filterMap_append, List.append_assoc]
  · rw [List.flatMap_append, ← List.append_assoc, h.bytes, List.append_assoc, h'.bytes,
      List.flatMap_append, List.append_assoc]
  · rw [List.filterMap_append, h.quiet, h'.quiet]
    rfl
  · rw [List.flatMap_append, h.unlost, h'.unlost]
    rfl
  · have hheeds := h'.heeds
    rw [hclosed] at hheeds
    exact hheeds.append hcalm

theorem mono {fails' : Fault → Prop} (h : Accounts p fails xs p₁)
    (himp : ∀ fault, fails fault → fails' fault) : Accounts p fails' xs p₁ :=
  { h with heeds := h.heeds.mono himp }

/-- The diagnostics of a port are no part of the account. -/
theorem of_log {log : Log} (h : Accounts { p with log } fails xs p₁) : Accounts p fails xs p₁ :=
  ⟨h.queue, h.traffic, h.bytes, h.quiet, h.unlost, h.heeds⟩

/-- Requests that have been taken in. -/
theorem of_took {taken : List Request} (h : Took p p.inbox.requests taken fails [] p₁) :
    Accounts p fails (taken.map .take) p₁ := by
  have harrived : (taken.map Deed.take).flatMap Deed.arrived = taken.flatMap Request.payload :=
    List.flatMap_map ..
  have hdelivered : (taken.map Deed.take).flatMap Deed.delivered = [] :=
    flatMap_of_kind (fun _ => rfl) taken
  refine ⟨?_, ?_, ?_, filterMap_of_kind (fun _ => rfl) taken,
    flatMap_of_kind (fun _ => rfl) taken, h.heeds⟩
  · rw [requests_of_takes]
    exact h.queue
  · rw [filterMap_of_kind (fun _ => rfl), h.link, List.append_nil]
  · rw [harrived, hdelivered]
    exact h.bytes

/-- Operations on the link. -/
theorem of_operations {ops : List Operation} (hinbox : p₁.inbox = p.inbox)
    (hpending : p₁.pending = p.pending) (hclosed : p₁.closed = p.closed)
    (htraffic : p₁.link.traffic.toList = p.link.traffic.toList ++ ops) :
    Accounts p fails (ops.map .operate) p₁ := by
  refine ⟨?_, ?_, ?_, filterMap_of_kind (fun _ => rfl) ops, flatMap_of_kind (fun _ => rfl) ops, ?_⟩
  · rw [filterMap_of_kind (fun _ => rfl), hinbox]
    rfl
  · rw [operations_of_operates, htraffic]
  · rw [flatMap_of_kind (fun _ => rfl), flatMap_of_kind (fun _ => rfl), hpending, List.append_nil]
    rfl
  · rw [hclosed]
    exact .calm fun r hr => by simp at hr

/-- A byte that was waiting is given. -/
theorem of_give (p : TransferPort (Tap σ)) (b : UInt8) :
    Accounts { p with pending := b :: p.pending } fails [.give b] p :=
  ⟨rfl, (List.append_nil _).symm, List.append_nil _, rfl, rfl, .calm fun r hr => by simp at hr⟩

end Accounts

/-- Remarks about bytes change the diagnostics only. -/
theorem remarkAll_eq (p : TransferPort σ) (bytes : Bytes) :
    ∃ log, p.remarkAll bytes = { p with log } := by
  rw [remarkAll]
  cases p.log.keeps .trace with
  | false => exact ⟨p.log, rfl⟩
  | true =>
    rw [if_pos rfl]
    induction bytes generalizing p with
    | nil => exact ⟨p.log, rfl⟩
    | cons b bytes ih => exact ih _

theorem Took.since_eq {p p₁ : TransferPort (Tap σ)} {taken : List Request} {fails : Fault → Prop}
    {given : Bytes} (h : Took p p.inbox.requests taken fails given p₁) :
    p.since p₁ = taken.map .take := by
  have htraffic : p₁.link.traffic.toList = p.link.traffic.toList ++ [] := by
    rw [h.link, List.append_nil]
  rw [TransferPort.since_eq h.queue htraffic, List.map_nil, List.append_nil]

/-- A byte that is read is given after the requests that brought it. -/
theorem accounts_readByte (p : TransferPort (Tap σ)) :
    Accounts p (fun fault => p.readByte.1 = .error fault)
      (p.since p.readByte.2 ++ (gotten p.readByte.1).map .give) p.readByte.2 := by
  obtain ⟨taken, h⟩ := p.awaitByte_took p.inbox.arrivals
  have hsince := Took.since_eq h
  rw [readByte]
  generalize p.awaitByte p.inbox.arrivals = out at h hsince ⊢
  obtain ⟨fault | b, p₁⟩ := out
  · rw [hsince, gotten, List.map_nil, List.append_nil]
    exact .of_took h
  · -- the byte was held for a moment before it was given
    have htook : Took p p.inbox.requests taken (fun _ => False) []
        { p₁ with pending := b :: p₁.pending } :=
      ⟨h.link, h.queue, h.bytes, h.heeds.mono nofun⟩
    rw [hsince]
    exact (Accounts.of_took htook).append (.of_give p₁ b)

variable [Link σ]

/-- Bytes are written after the requests that were queued have been taken. -/
theorem accounts_write (p : TransferPort (Tap σ)) (bytes : Bytes) :
    Accounts p (fun fault => (p.write bytes).1 = .error fault) (p.since (p.write bytes).2)
      (p.write bytes).2 := by
  obtain ⟨taken, h⟩ := p.takeQueued_took p.inbox.arrivals
  rw [write]
  generalize p.takeQueued p.inbox.arrivals = out at h ⊢
  obtain ⟨fault | done, p₁⟩ := out
  · rw [Took.since_eq h]
    exact .of_took h
  · obtain ⟨log, hlog⟩ := p₁.remarkAll_eq bytes
    obtain ⟨ops, hops, -⟩ := writePaced_traffic p₁.pacing bytes p₁.link
    have htook : Took p p.inbox.requests taken (fun _ => False) [] p₁ :=
      { h with heeds := h.heeds.mono nofun }
    have hsince : p.since ⟨(writePaced p₁.pacing bytes p₁.link).2, p₁.pacing, p₁.inbox, p₁.pending,
        p₁.closed, log⟩ = taken.map .take ++ ops.map .operate :=
      since_eq h.queue (by rw [hops, h.link])
    dsimp only
    rw [hlog, hsince]
    exact (Accounts.of_took htook).append (.of_operations rfl rfl rfl hops)

end

end TransferPort

/-! ## The deeds of a transfer -/

section

variable {σ : Type} [Link σ] {α : Type}

/-- The deeds of a dialogue, first to last. -/
def dialogueDeeds : Dialogue α → TransferPort (Tap σ) → List Deed
  | .done _, _ => []
  | .step (.write bytes) next, p =>
    match p.write bytes with
    | (.error _, p') => p.since p'
    | (.ok _, p') => p.since p' ++ dialogueDeeds (next ()) p'
  | .step .read next, p =>
    match p.readByte with
    | (.error _, p') => p.since p'
    | (.ok b, p') => p.since p' ++ [.give b] ++ dialogueDeeds (next b) p'
  | .step (.note record) next, p => dialogueDeeds (next ()) (Port.note p record)
  | .step (.fail _) _, _ => []

/-- **The deeds of a dialogue account for everything** that it does to the console, and every request
that ends a transfer ends it. -/
theorem accounts_run (d : Dialogue α) (p : TransferPort (Tap σ)) :
    p.Accounts (fun fault => (Port.run d p).1 = .error (.fault fault)) (dialogueDeeds d p)
      (Port.run d p).2 := by
  induction d generalizing p with
  | done a => exact .nil p _
  | step intent next ih =>
    cases intent with
    | write bytes =>
      have hwrite := p.accounts_write bytes
      simp only [Port.run, dialogueDeeds, Port.write]
      generalize p.write bytes = out at hwrite ⊢
      obtain ⟨fault | done, p'⟩ := out
      · refine hwrite.mono fun fault' h => ?_
        cases h
        rfl
      · exact (hwrite.mono nofun).append (ih () p')
    | read =>
      have hread := p.accounts_readByte
      simp only [Port.run, dialogueDeeds, Port.readByte]
      generalize p.readByte = out at hread ⊢
      obtain ⟨fault | b, p'⟩ := out
      · rw [TransferPort.gotten, List.map_nil, List.append_nil] at hread
        refine hread.mono fun fault' h => ?_
        cases h
        rfl
      · exact (hread.mono nofun).append (ih b p')
    | note record =>
      have h := ih () (Port.note p record)
      exact h.of_log
    | fail failure => exact .nil p _

end

end BoardConsole.Console
