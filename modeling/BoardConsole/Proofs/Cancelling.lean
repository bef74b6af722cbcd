import BoardConsole.Proofs.Servicing

/-!
# Calling a transfer off

A transfer takes requests from the queue whenever it reads or writes, and whatever is queued before
it writes.  So once the queue holds a request that calls it off, reads may still give it bytes, but
nothing reaches the link any more, and what is queued behind that request is left there.

- `Port.after`: a dialogue and its port after some intents, so that any point of a transfer can be
  spoken of.
- `TransferPort.Called`: a request that calls the transfer off is in the queue.
- `TransferPort.Called.write`, `Called.readByte`: what writing and reading come to then.
- `TransferPort.Called.after`, `Called.run`: what the rest of the transfer comes to.
- `Console.sendData_called`: **from then on the transfer writes nothing**.
-/

namespace BoardConsole

/-! ## The points of a dialogue -/

namespace Transfer.Port

variable {π α : Type} [Port π]

/-- What is left of a dialogue, and the port, after its next intent, unless the dialogue ends or
the port fails there. -/
def next? : Dialogue α × π → Option (Dialogue α × π)
  | (.done _, _) => none
  | (.step (.write bytes) next, p) =>
    match Port.write p bytes with
    | (.error _, _) => none
    | (.ok _, p) => some (next (), p)
  | (.step .read next, p) =>
    match Port.readByte p with
    | (.error _, _) => none
    | (.ok b, p) => some (next b, p)
  | (.step (.note record) next, p) => some (next (), Port.note p record)
  | (.step (.fail _) _, _) => none

/-- What is left of a dialogue, and the port, after some intents. -/
def after : Nat → Dialogue α × π → Option (Dialogue α × π)
  | 0, point => some point
  | n + 1, point => (next? point).bind (after n)

/-- What is left of a dialogue ends as the dialogue does. -/
theorem run_next? {d d' : Dialogue α} {p p' : π} (h : next? (d, p) = some (d', p')) :
    run d p = run d' p' := by
  cases d with
  | done a => cases h
  | step intent next =>
    cases intent with
    | write bytes =>
      rw [run]
      rw [next?] at h
      rcases hwrite : Port.write p bytes with ⟨fault | done, q⟩
      · rw [hwrite] at h
        cases h
      · rw [hwrite] at h
        cases h
        rfl
    | read =>
      rw [run]
      rw [next?] at h
      rcases hread : Port.readByte p with ⟨fault | b, q⟩
      · rw [hread] at h
        cases h
      · rw [hread] at h
        cases h
        rfl
    | note record =>
      cases h
      rfl
    | fail failure => cases h

theorem run_after {n : Nat} {d d' : Dialogue α} {p p' : π} (h : after n (d, p) = some (d', p')) :
    run d p = run d' p' := by
  induction n generalizing d p with
  | zero =>
    cases h
    rfl
  | succ n ih =>
    obtain ⟨⟨d₁, p₁⟩, hnext, hrest⟩ := Option.bind_eq_some_iff.mp h
    exact (run_next? hnext).trans (ih hrest)

end Transfer.Port

namespace Console

open Transfer (Dialogue Port)

namespace TransferPort

variable {σ : Type}

/-! ## A queue that calls the transfer off -/

/-- A request that calls the transfer off is in the queue, behind it what else is to come, and the
first request of the queue that ends the transfer ends it with the fault: that one, unless another
comes before it. -/
def Called (p : TransferPort σ) (fault : Fault) (behind : List Arrival) : Prop :=
  ∃ ahead : List Request, p.inbox.arrivals = ahead.map .request ++ .request .cancel :: behind ∧
    (ahead ++ [Request.cancel]).findSome? Request.fault? = some fault

theorem Called.suffix {p : TransferPort σ} {fault : Fault} {behind : List Arrival}
    (h : p.Called fault behind) : behind <:+ p.inbox.arrivals := by
  obtain ⟨ahead, harrivals, -⟩ := h
  rw [harrivals]
  exact (List.suffix_cons _ _).trans (List.suffix_append _ _)

/-- What something leads to that fails because the transfer has been called off. -/
structure Stopped (p : TransferPort σ) (fault : Fault) (behind : List Arrival) {β : Type}
    (out : Except Fault β × TransferPort σ) : Prop where
  fails : out.1 = .error fault
  link : out.2.link = p.link
  behind : behind <:+ out.2.inbox.arrivals

/-- Taking in what is queued ends at the first request that ends the transfer. -/
theorem takeQueued_called (p : TransferPort σ) {fault : Fault} (behind : List Arrival)
    {ahead : List Request} (h : (ahead ++ [Request.cancel]).findSome? Request.fault? = some fault) :
    Stopped p fault behind
      (p.takeQueued (ahead.map .request ++ .request .cancel :: behind)) := by
  induction ahead generalizing p with
  | nil =>
    cases h
    exact ⟨rfl, rfl, List.suffix_rfl⟩
  | cons r ahead ih =>
    have hlink := (p.accept_spec r).1
    rw [List.map_cons, List.cons_append, takeQueued]
    rw [List.cons_append, List.findSome?_cons] at h
    cases hr : r.fault? with
    | none =>
      rw [hr] at h
      rw [p.accept_ok hr]
      obtain ⟨hfails, hrest, hbehind⟩ := ih (p.accept r).2 h
      exact ⟨hfails, hrest.trans hlink, hbehind⟩
    | some fault' =>
      rw [hr] at h
      cases h
      rw [p.accept_error hr]
      exact ⟨rfl, hlink, (List.suffix_cons _ _).trans (List.suffix_append _ _)⟩

/-- A byte that is waited for is there already, or comes with a request ahead of the one that calls
the transfer off; otherwise the wait ends as that one says. -/
theorem awaitByte_called (p : TransferPort σ) {fault : Fault} (behind : List Arrival)
    {ahead : List Request} (h : (ahead ++ [Request.cancel]).findSome? Request.fault? = some fault) :
    let out := p.awaitByte (ahead.map .request ++ .request .cancel :: behind)
    Stopped p fault behind out ∨
      ∃ b, out.1 = .ok b ∧ out.2.link = p.link ∧ out.2.Called fault behind := by
  induction ahead generalizing p with
  | nil =>
    obtain ⟨link, pacing, inbox, pending, closed, log⟩ := p
    cases pending with
    | nil =>
      cases h
      exact .inl ⟨rfl, rfl, List.suffix_rfl⟩
    | cons b pending => exact .inr ⟨b, rfl, rfl, [], rfl, h⟩
  | cons r ahead ih =>
    cases hpending : p.pending with
    | cons b pending =>
      obtain ⟨link, pacing, inbox, pending, closed, log⟩ := p
      cases hpending
      exact .inr ⟨b, rfl, rfl, r :: ahead, rfl, h⟩
    | nil =>
      have hlink := (p.accept_spec r).1
      rw [List.map_cons, List.cons_append, awaitByte, hpending]
      rw [List.cons_append, List.findSome?_cons] at h
      dsimp only
      cases hr : r.fault? with
      | none =>
        rw [hr] at h
        rw [p.accept_ok hr]
        rcases ih (p.accept r).2 h with ⟨hfails, hrest, hbehind⟩ | ⟨b, hb, hrest, hcalled⟩
        · exact .inl ⟨hfails, hrest.trans hlink, hbehind⟩
        · exact .inr ⟨b, hb, hrest.trans hlink, hcalled⟩
      | some fault' =>
        rw [hr] at h
        cases h
        rw [p.accept_error hr]
        exact .inl ⟨rfl, hlink, (List.suffix_cons _ _).trans (List.suffix_append _ _)⟩

namespace Called

variable {p : TransferPort σ} {fault : Fault} {behind : List Arrival}

/-- Reading may go on, but does nothing to the link. -/
theorem readByte (h : p.Called fault behind) :
    Stopped p fault behind p.readByte ∨
      ∃ b, p.readByte.1 = .ok b ∧ p.readByte.2.link = p.link ∧ p.readByte.2.Called fault behind := by
  obtain ⟨ahead, harrivals, hfault⟩ := h
  rw [TransferPort.readByte, harrivals]
  exact p.awaitByte_called behind hfault

variable [Link σ]

/-- Writing fails before anything is put on the link. -/
theorem write (h : p.Called fault behind) (bytes : Bytes) :
    Stopped p fault behind (p.write bytes) := by
  obtain ⟨ahead, harrivals, hfault⟩ := h
  have htaken := p.takeQueued_called behind hfault
  rw [← harrivals] at htaken
  rw [TransferPort.write]
  generalize p.takeQueued p.inbox.arrivals = out at htaken ⊢
  obtain ⟨fault' | done, p'⟩ := out
  · exact ⟨htaken.fails, htaken.link, htaken.behind⟩
  · cases htaken.fails

/-! ## The rest of the transfer -/

variable {α : Type}

/-- One intent does nothing to the link. -/
theorem next? (h : p.Called fault behind) {d d' : Dialogue α} {p' : TransferPort σ}
    (hnext : Port.next? (d, p) = some (d', p')) : p'.Called fault behind ∧ p'.link = p.link := by
  cases d with
  | done a => cases hnext
  | step intent next =>
    cases intent with
    | write bytes =>
      have hstopped := h.write bytes
      simp only [Port.next?, Port.write] at hnext
      generalize p.write bytes = out at hstopped hnext
      obtain ⟨fault' | done, q⟩ := out
      · cases hnext
      · cases hstopped.fails
    | read =>
      have hread := h.readByte
      simp only [Port.next?, Port.readByte] at hnext
      generalize p.readByte = out at hread hnext
      obtain ⟨fault' | b, q⟩ := out
      · cases hnext
      · cases hnext
        rcases hread with hstopped | ⟨-, -, hlink, hcalled⟩
        · cases hstopped.fails
        · exact ⟨hcalled, hlink⟩
    | note record =>
      cases hnext
      exact ⟨h, rfl⟩
    | fail failure => cases hnext

/-- **Nothing is done to the link** at any later point, and the request is still in the queue. -/
theorem after (h : p.Called fault behind) {n : Nat} {d d' : Dialogue α} {p' : TransferPort σ}
    (hafter : Port.after n (d, p) = some (d', p')) :
    p'.Called fault behind ∧ p'.link = p.link := by
  induction n generalizing d p with
  | zero =>
    cases hafter
    exact ⟨h, rfl⟩
  | succ n ih =>
    obtain ⟨⟨d₁, p₁⟩, hnext, hrest⟩ := Option.bind_eq_some_iff.mp hafter
    obtain ⟨hcalled, hlink⟩ := h.next? hnext
    obtain ⟨hcalled', hlink'⟩ := ih hcalled hrest
    exact ⟨hcalled', hlink'.trans hlink⟩

/-- However the rest of the transfer ends, the link is as it was and what is behind the request is
in the queue. -/
theorem run (h : p.Called fault behind) (d : Dialogue α) :
    (Port.run d p).2.link = p.link ∧ behind <:+ (Port.run d p).2.inbox.arrivals := by
  induction d generalizing p with
  | done a => exact ⟨rfl, h.suffix⟩
  | step intent next ih =>
    cases intent with
    | write bytes =>
      have hstopped := h.write bytes
      simp only [Port.run, Port.write]
      generalize p.write bytes = out at hstopped ⊢
      obtain ⟨fault' | done, q⟩ := out
      · exact ⟨hstopped.link, hstopped.behind⟩
      · cases hstopped.fails
    | read =>
      have hread := h.readByte
      simp only [Port.run, Port.readByte]
      generalize p.readByte = out at hread ⊢
      obtain ⟨fault' | b, q⟩ := out
      · rcases hread with hstopped | ⟨b, hb, -⟩
        · exact ⟨hstopped.link, hstopped.behind⟩
        · cases hb
      · rcases hread with hstopped | ⟨-, -, hlink, hcalled⟩
        · cases hstopped.fails
        · obtain ⟨hrest, hbehind⟩ := ih b hcalled
          exact ⟨hrest.trans hlink, hbehind⟩
    | note record =>
      have hnoted : (Port.note p record).Called fault behind := h
      exact ih () hnoted
    | fail failure => exact ⟨rfl, h.suffix⟩

end Called

end TransferPort

variable {σ : Type} [Link σ]

/-- **Calling a transfer off stops it.**  From any point of a transfer at which a request that calls
it off is in the queue, whatever has been taken in before and whatever arrives later: every attempt
to write fails, as that request says or one in front of it that ends the transfer, and does nothing
to the link; the transfer fails in the same way if it comes to an attempt; and when it has ended,
the link is as it was at that point, and the queue still ends with all that is behind the
request. -/
theorem sendData_called (c : Console σ) (protocol : Transfer.Protocol) (file : String)
    (data : Bytes) {n : Nat} {d : Dialogue Unit} {p : TransferPort σ} {fault : Fault}
    {behind : List Arrival}
    (hpoint : Port.after n (fileDialogue protocol file data, c.transferPort) = some (d, p))
    (hcalled : p.Called fault behind) :
    (∀ m d' p', Port.after m (d, p) = some (d', p') →
      (∀ bytes, (p'.write bytes).1 = .error fault ∧ (p'.write bytes).2.link = p.link) ∧
      (∀ bytes next, d' = .step (.write bytes) next →
        (Port.run (fileDialogue protocol file data) c.transferPort).1 = .error (.fault fault))) ∧
      (c.sendData protocol file data).2.link = p.link ∧
      behind <:+ (c.sendData protocol file data).2.inbox.arrivals := by
  have hrest : Port.run (fileDialogue protocol file data) c.transferPort = Port.run d p :=
    Port.run_after hpoint
  refine ⟨fun m d' p' hafter => ⟨fun bytes => ?_, fun bytes next hd' => ?_⟩, ?_⟩
  · obtain ⟨hstill, hlink⟩ := hcalled.after hafter
    have hstopped := hstill.write bytes
    exact ⟨hstopped.fails, hstopped.link.trans hlink⟩
  · subst hd'
    have hstopped := (hcalled.after hafter).1.write bytes
    rw [hrest, Port.run_after hafter, Port.run]
    simp only [Port.write]
    generalize p'.write bytes = out at hstopped ⊢
    obtain ⟨fault' | done, q⟩ := out
    · cases hstopped.fails
      rfl
    · cases hstopped.fails
  · have hrun := hcalled.run d
    rw [← hrest] at hrun
    exact hrun

/-- The transfer is called off while its only block is acknowledged: the acknowledgement is read, the
end of the file is not sent, and a byte that comes later is left in the queue. -/
theorem sendData_called_acknowledged :
    let behind : List Arrival := [.request (.incoming [0x7A])]
    let c : Console Script :=
      { link := {}, device := "tty", kind := .serial, pacing := ⟨0⟩
        inbox := ⟨[.request (.incoming [0x43]), .pause, .request (.incoming [0x06]),
          .request (.keys [0x78]), .request .cancel] ++ behind, false⟩ }
    ∃ d p, Port.after 5 (fileDialogue .xmodem "f" [0x41], c.transferPort) = some (d, p) ∧
      p.Called .cancelled behind ∧
      (Port.run (fileDialogue .xmodem "f" [0x41]) c.transferPort).1
        = .error (.fault .cancelled) ∧
      (c.sendData .xmodem "f" [0x41]).2.link = p.link ∧
      behind <:+ (c.sendData .xmodem "f" [0x41]).2.inbox.arrivals := by
  intro behind c
  have harrivals : (Port.after 5 (fileDialogue .xmodem "f" [0x41], c.transferPort)).map
      (fun point => point.2.inbox.arrivals)
        = some (([.incoming [0x06], .keys [0x78]] : List Request).map .request
            ++ .request .cancel :: behind) := by decide +kernel
  obtain ⟨⟨d, p⟩, hpoint, hp⟩ := Option.map_eq_some_iff.mp harrivals
  have hcalled : p.Called .cancelled behind := ⟨_, hp, rfl⟩
  obtain ⟨-, hlink, hbehind⟩ := c.sendData_called .xmodem "f" [0x41] hpoint hcalled
  exact ⟨d, p, hpoint, hcalled, by decide +kernel, hlink, hbehind⟩

end Console

end BoardConsole
