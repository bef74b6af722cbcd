import BoardConsole.Proofs.Replies

/-!
# Exchanges over an arbitrary link

Whatever a command asks for from the link comes to an exchange: so much of a string was taken, a
reply was delivered or was not, some time was spent.  The exchanges of a procedure account for
everything that happens on the link and for every failure that the user is told about.

- `Exchange`: what comes of one intent, with its operations on the link and its complaint.
- `Procedure.exchanges`: the exchanges of a procedure, first to last.
- `Session.genuine_exchanges`: strings are cut short by the first byte refused and by nothing else,
  and a reply is what its reads gave.
- `Session.perform_traffic`: **the traffic on the link is that of the exchanges**.
-/

namespace BoardConsole.Debugger

/-! ## Exchanges -/

/-- A byte that a link refused, and why. -/
structure Refusal where
  /-- The byte. -/
  byte : UInt8
  /-- The reason. -/
  fault : Fault
  deriving DecidableEq, Repr

/-- What comes of one intent about the link. -/
inductive Exchange
  /-- A string was sent: the bytes of it that were taken, and the one refused, if there was one. -/
  | sent (text : List Char) (taken : Bytes) (refusal : Option Refusal)
  /-- A reply was awaited: what was delivered, and the reads it took. -/
  | answered (delivery : Delivery) (reads : List Operation)
  /-- Stale bytes were thrown away. -/
  | drained (got : Option Bytes)
  /-- Some microseconds were spent. -/
  | waited (micros : Nat)
  deriving DecidableEq

namespace Exchange

/-- The intent it comes from. -/
def intent : Exchange → Intent
  | .sent text _ _ => .send text
  | .answered _ _ => .reply
  | .drained _ => .drain
  | .waited micros => .settle micros

/-- The operations on the link for a byte that is taken. -/
def ofByte (pacing : Pacing) (b : UInt8) : List Operation :=
  .write [b] true :: pacing.charDelay.toList.map .delay

/-- The operations on the link, first to last. -/
def operations (pacing : Pacing) : Exchange → List Operation
  | .sent _ taken refusal =>
    taken.flatMap (ofByte pacing) ++ refusal.toList.map fun r => .write [r.byte] false
  | .answered _ reads => reads
  | .drained got => [.readWithin drainRoom drainLimit got]
  | .waited micros => [.delay micros]

/-- What the user is told about it. -/
def complaint : Exchange → Option Entry
  | .sent _ _ refusal =>
    refusal.map fun r => .line s!"Error writing to debug device: {r.fault.message}"
  | .answered delivery _ => delivery.complaint
  | .drained _ => none
  | .waited _ => none

end Exchange

/-- The reads that a delivery takes: one if it comes whole, two if it comes in halves. -/
inductive Delivery.Reads : Delivery → List Operation → Prop
  | failed (fault : Fault) : Reads (.error fault) [.read 2 none]
  | silent : Reads (.error .timeout) [.read 2 (some [])]
  | whole (first second : UInt8) :
    Reads (.ok [first, second]) [.read 2 (some [first, second])]
  | halfFailed (first : UInt8) (fault : Fault) :
    Reads (.error fault) [.read 2 (some [first]), .read 1 none]
  | halfSilent (first : UInt8) :
    Reads (.error .timeout) [.read 2 (some [first]), .read 1 (some [])]
  | halves (first second : UInt8) :
    Reads (.ok [first, second]) [.read 2 (some [first]), .read 1 (some [second])]

/-- The exchange is one that a link can lead to.  A string is taken whole or up to a byte of it that
is refused, and a reply is delivered by its reads. -/
def Exchange.Genuine : Exchange → Prop
  | .sent text taken none => taken = Utf8.encode text
  | .sent text taken (some r) => taken ++ [r.byte] <+: Utf8.encode text
  | .answered delivery reads => delivery.Reads reads
  | .drained _ => True
  | .waited _ => True

section

variable {σ : Type} [Link σ] {α β : Type}

/-! ## The exchanges of a procedure -/

/-- The bytes of a string that a link takes, and the one it refuses. -/
def offer (pacing : Pacing) : Bytes → σ → Bytes × Option Refusal
  | [], _ => ([], none)
  | b :: bs, link =>
    match Link.write link [b] with
    | (.error fault, _) => ([], some ⟨b, fault⟩)
    | (.ok _, link) =>
      let out := offer pacing bs (pacing.charDelay.elim link (Link.delay link))
      (b :: out.1, out.2)

/-- The reads for a reply. -/
def pairReads (link : σ) : List Operation :=
  match Link.read link 2 with
  | (.error _, _) => [.read 2 none]
  | (.ok [first], link) => [.read 2 (some [first]), .read 1 (Link.read link 1).1.toOption]
  | (.ok bs, _) => [.read 2 (some bs)]

/-- What comes of an intent, if it is about the link. -/
def Intent.exchange (s : Session σ) : Intent → List Exchange
  | .send text =>
    let out := offer s.pacing (Utf8.encode text) s.link
    [.sent text out.1 out.2]
  | .reply => [.answered (Session.readPair s.link).1 (pairReads s.link)]
  | .drain => [.drained (Link.readWithin s.link drainRoom drainLimit).1.toOption]
  | .settle micros => [.waited micros]
  | .tell _ => []
  | .note _ => []

namespace Procedure

/-- The exchanges of a procedure, first to last. -/
def exchanges : Procedure α → Session σ → List Exchange
  | .done _, _ => []
  | .step intent next, s =>
    intent.exchange s ++ exchanges (next (s.carryOut intent).1) (s.carryOut intent).2

theorem exchanges_step (intent : Intent) (next : intent.Answer → Procedure α) (s : Session σ) :
    exchanges (.step intent next) s
      = intent.exchange s ++ exchanges (next (s.carryOut intent).1) (s.carryOut intent).2 := rfl

end Procedure

/-- The exchanges of a command, first to last. -/
def Session.exchanges (s : Session σ) (loader : Loader) (words : List String) : List Exchange :=
  match Command.parse words with
  | none => []
  | some command =>
    Procedure.exchanges (command.procedure loader)
      (s.note .info fun _ => s!"debug command: {command.describe}")

/-! ## They are genuine -/

/-- A string is cut short by a byte that is refused, and by nothing else. -/
theorem offer_prefix (pacing : Pacing) (bs : Bytes) (link : σ) :
    (∃ r, (offer pacing bs link).2 = some r ∧ (offer pacing bs link).1 ++ [r.byte] <+: bs) ∨
      ((offer pacing bs link).2 = none ∧ (offer pacing bs link).1 = bs) := by
  induction bs generalizing link with
  | nil => exact .inr ⟨rfl, rfl⟩
  | cons b bs ih =>
    rw [offer]
    rcases Link.write link [b] with ⟨fault | count, link⟩
    · exact .inl ⟨⟨b, fault⟩, rfl, bs, rfl⟩
    · rcases ih (pacing.charDelay.elim link (Link.delay link)) with ⟨r, hr, h⟩ | ⟨hr, h⟩
      · exact .inl ⟨r, hr, List.cons_prefix_cons.mpr ⟨rfl, h⟩⟩
      · exact .inr ⟨hr, congrArg (b :: ·) h⟩

/-- A buffer is never overrun, so a reply comes in one piece or in two. -/
theorem reads_pairReads (link : σ) :
    Delivery.Reads (Session.readPair link).1 (pairReads link) := by
  have hpair := Link.read_length link 2
  rw [Session.readPair, pairReads]
  generalize Link.read link 2 = out at hpair ⊢
  rcases out with ⟨fault | _ | ⟨first, _ | ⟨second, rest⟩⟩, link⟩
  · exact .failed fault
  · exact .silent
  · -- half a reply came, and the other half is read on its own
    have hsingle := Link.read_length link 1
    dsimp only
    generalize Link.read link 1 = out at hsingle ⊢
    rcases out with ⟨fault | _ | ⟨second, rest⟩, link⟩
    · exact .halfFailed first fault
    · exact .halfSilent first
    · have hrest : rest = [] := by
        have h := hsingle _ rfl
        simp only [List.length_cons] at h
        exact List.eq_nil_of_length_eq_zero (by omega)
      rw [hrest]
      exact .halves first second
  · have hrest : rest = [] := by
      have h := hpair _ rfl
      simp only [List.length_cons] at h
      exact List.eq_nil_of_length_eq_zero (by omega)
    rw [hrest]
    exact .whole first second

theorem Intent.genuine_exchange (s : Session σ) (intent : Intent) :
    ∀ x ∈ intent.exchange s, x.Genuine := by
  cases intent with
  | send text =>
    intro x hx
    rw [List.mem_singleton.mp hx]
    rcases offer_prefix s.pacing (Utf8.encode text) s.link with ⟨r, hr, h⟩ | ⟨hr, h⟩
    · rw [hr]
      exact h
    · rw [hr]
      exact h
  | reply =>
    intro x hx
    rw [List.mem_singleton.mp hx]
    exact reads_pairReads s.link
  | drain =>
    intro x hx
    rw [List.mem_singleton.mp hx]
    trivial
  | settle micros =>
    intro x hx
    rw [List.mem_singleton.mp hx]
    trivial
  | tell entry => exact fun _ hx => nomatch hx
  | note record => exact fun _ hx => nomatch hx

theorem Procedure.genuine_exchanges (p : Procedure α) (s : Session σ) :
    ∀ x ∈ p.exchanges s, x.Genuine := by
  induction p generalizing s with
  | done a => exact fun _ hx => nomatch hx
  | step intent next ih =>
    intro x hx
    rcases List.mem_append.mp hx with hx | hx
    · exact intent.genuine_exchange s x hx
    · exact ih _ _ x hx

/-- **Exchanges are genuine**, whatever the link. -/
theorem Session.genuine_exchanges (s : Session σ) (loader : Loader) (words : List String) :
    ∀ x ∈ s.exchanges loader words, x.Genuine := by
  rw [exchanges]
  cases Command.parse words with
  | none => exact fun _ hx => nomatch hx
  | some command => exact Procedure.genuine_exchanges _ _

/-! ## Failures that the user is told about -/

/-- What a session says when something goes wrong with the link. -/
def failureOpenings : List String :=
  ["Error writing to debug device: ", "Error reading from debug device: ",
    "Error parsing data from debug device: "]

/-- The entry tells that something went wrong with the link. -/
def Entry.isFailure : Entry → Bool
  | .line text => failureOpenings.any fun opening => opening.toList.isPrefixOf text.toList
  | .progress _ => false

theorem Entry.isFailure_of_opening (opening : String) {rest : String}
    (h : opening ∈ failureOpenings) : (Entry.line (opening ++ rest)).isFailure = true := by
  refine List.any_eq_true.mpr ⟨opening, h, List.isPrefixOf_iff_prefix.mpr ?_⟩
  rw [String.toList_append]
  exact List.prefix_append ..

/-- All failures begin alike, so a line that begins otherwise tells of none. -/
theorem Entry.not_isFailure_of_take {text : String} {n : Nat} {start : List Char}
    (htake : text.toList.take n = start)
    (hne : ∀ opening ∈ failureOpenings, opening.toList.take n ≠ start)
    (hlength : ∀ opening ∈ failureOpenings, n ≤ opening.toList.length) :
    (Entry.line text).isFailure = false := by
  refine List.any_eq_false.mpr fun opening hmem hprefix => ?_
  obtain ⟨rest, hrest⟩ := List.isPrefixOf_iff_prefix.mp hprefix
  refine hne opening hmem (Eq.trans ?_ htake)
  rw [← hrest, List.take_append_of_le_length (hlength opening hmem)]

theorem ReplyFault.isFailure_message (fault : ReplyFault) :
    (Entry.line fault.message).isFailure = true := by
  cases fault with
  | link fault =>
    exact Entry.isFailure_of_opening "Error reading from debug device: " (by decide)
  | garbled reply =>
    exact Entry.isFailure_of_opening "Error parsing data from debug device: " (by decide)

theorem Exchange.isFailure_complaint {x : Exchange} {entry : Entry}
    (h : x.complaint = some entry) : entry.isFailure = true := by
  cases x with
  | sent text taken refusal =>
    obtain ⟨r, -, rfl⟩ := Option.map_eq_some_iff.mp h
    exact Entry.isFailure_of_opening "Error writing to debug device: " (by decide)
  | answered delivery reads =>
    change delivery.complaint = some entry at h
    rw [Delivery.complaint] at h
    cases hdecode : delivery.decode with
    | ok b =>
      rw [hdecode] at h
      cases h
    | error fault =>
      rw [hdecode] at h
      cases h
      exact fault.isFailure_message
  | drained got => cases h
  | waited micros => cases h

namespace Session

/-- The user is told about a string what its exchange complains of. -/
theorem sendBytes_complaint (text : List Char) (bs : Bytes) (s : Session σ) :
    let out := offer s.pacing bs s.link
    (s.sendBytes bs).transcript.toList
      = s.transcript.toList ++ (Exchange.sent text out.1 out.2).complaint.toList := by
  intro out
  induction bs generalizing s with
  | nil => exact (List.append_nil _).symm
  | cons b bs ih =>
    obtain ⟨link, pacing, transcript, log⟩ := s
    revert out
    simp only [sendBytes, sendByte, offer]
    rcases Link.write link [b] with ⟨fault | count, link⟩
    · exact Array.toList_push ..
    · cases hdelay : pacing.charDelay with
      | none => exact ih ⟨link, pacing, transcript, _⟩
      | some micros => exact ih ⟨Link.delay link micros, pacing, transcript, _⟩

/-- The user is told about a reply what its exchange complains of. -/
theorem receive_complaint (s : Session σ) :
    s.receive.2.transcript.toList
      = s.transcript.toList ++ (Delivery.complaint (readPair s.link).1).toList := by
  obtain ⟨link, pacing, transcript, log⟩ := s
  rw [receive, readReply_eq, Delivery.complaint]
  cases Delivery.decode (readPair link).1 with
  | ok b => exact (List.append_nil _).symm
  | error fault => exact Array.toList_push ..

/-- Of all that is told on account of an intent, the failures are what its exchange complains of,
unless the intent itself is to tell of one. -/
theorem carryOut_failures (s : Session σ) {intent : Intent}
    (h : ∀ entry, intent = .tell entry → entry.isFailure = false) :
    ∃ told, (s.carryOut intent).2.transcript.toList = s.transcript.toList ++ told ∧
      told.filter Entry.isFailure = (intent.exchange s).filterMap Exchange.complaint := by
  -- a complaint is a failure, so the filter keeps it
  have hfilter : ∀ x : Exchange,
      x.complaint.toList.filter Entry.isFailure = [x].filterMap Exchange.complaint := by
    intro x
    cases hx : x.complaint with
    | none => rw [List.filterMap_cons_none hx]; rfl
    | some entry =>
      rw [List.filterMap_cons_some hx, Option.toList_some,
        List.filter_cons_of_pos (Exchange.isFailure_complaint hx)]
      rfl
  cases intent with
  | send text =>
    exact ⟨_, sendBytes_complaint text (Utf8.encode text)
      (s.note .trace fun _ => s!"debug tx {Text.quote (String.ofList text)}"), hfilter _⟩
  | reply => exact ⟨_, receive_complaint s, hfilter (.answered _ (pairReads s.link))⟩
  | drain =>
    obtain ⟨link, pacing, transcript, log⟩ := s
    simp only [carryOut, discard]
    rcases Link.readWithin link drainRoom drainLimit with ⟨fault | _ | ⟨b, bs⟩, link'⟩
    · exact ⟨[], (List.append_nil _).symm, rfl⟩
    · exact ⟨[], (List.append_nil _).symm, rfl⟩
    · -- bytes that were thrown away are told, but not as a failure
      have htake : (s!"Discarded {(b :: bs).length} byte{plural (b :: bs).length} from debug device."
          ).toList.take 1 = ['D'] := by
        simp only [String.toList_append, List.append_assoc]
        rfl
      refine ⟨[_], Array.toList_push .., ?_⟩
      rw [List.filter_cons_of_neg]
      · rfl
      · rw [Entry.not_isFailure_of_take htake (by decide) (by decide)]
        exact Bool.false_ne_true
  | settle micros => exact ⟨[], (List.append_nil _).symm, rfl⟩
  | tell entry =>
    refine ⟨[entry], Array.toList_push .., List.filter_cons_of_neg ?_⟩
    rw [h entry rfl]
    exact Bool.false_ne_true
  | note record => exact ⟨[], (List.append_nil _).symm, rfl⟩

end Session

end

/-! ## The traffic on the link -/

section

variable {σ : Type} [Link σ] {α : Type}

namespace Session

/-- Sending a string is the operations of its exchange. -/
theorem sendBytes_traffic (text : List Char) (bs : Bytes) (s : Session (Tap σ)) :
    let out := offer s.pacing bs s.link
    (s.sendBytes bs).link.traffic.toList
        = s.link.traffic.toList ++ (Exchange.sent text out.1 out.2).operations s.pacing ∧
      (s.sendBytes bs).pacing = s.pacing := by
  intro out
  induction bs generalizing s with
  | nil => exact ⟨(List.append_nil _).symm, rfl⟩
  | cons b bs ih =>
    obtain ⟨⟨link, traffic⟩, pacing, transcript, log⟩ := s
    revert out
    simp only [sendBytes, sendByte, offer, Link.write, Tap.write]
    rcases Link.write link [b] with ⟨fault | count, link⟩
    · exact ⟨Array.toList_push .., rfl⟩
    · cases hdelay : pacing.charDelay with
      | none =>
        obtain ⟨htraffic, hpacing⟩ :=
          ih ⟨⟨link, traffic.push (.write [b] true)⟩, pacing, transcript, _⟩
        refine ⟨htraffic.trans ?_, hpacing⟩
        simp [Exchange.operations, Exchange.ofByte, hdelay]
        rfl
      | some micros =>
        obtain ⟨htraffic, hpacing⟩ := ih ⟨⟨Link.delay link micros,
          (traffic.push (.write [b] true)).push (.delay micros)⟩, pacing, transcript, _⟩
        refine ⟨htraffic.trans ?_, hpacing⟩
        simp [Exchange.operations, Exchange.ofByte, hdelay]
        rfl

/-- Awaiting a reply is its reads. -/
theorem readReply_traffic (t : Tap σ) :
    (readReply t).2.traffic.toList = t.traffic.toList ++ pairReads t := by
  obtain ⟨link, traffic⟩ := t
  simp only [readReply_eq, readPair, pairReads, Link.read, Tap.read]
  rcases Link.read link 2 with ⟨fault | _ | ⟨first, _ | ⟨second, rest⟩⟩, link⟩
  · exact Array.toList_push ..
  · exact Array.toList_push ..
  · dsimp only
    rcases Link.read link 1 with ⟨fault | _ | ⟨second, rest⟩, link⟩
    all_goals
      simp only [Array.toList_push, List.append_assoc]
      rfl
  · exact Array.toList_push ..

theorem carryOut_traffic (s : Session (Tap σ)) (intent : Intent) :
    (s.carryOut intent).2.link.traffic.toList
        = s.link.traffic.toList ++ (intent.exchange s).flatMap (Exchange.operations s.pacing) ∧
      (s.carryOut intent).2.pacing = s.pacing := by
  cases intent with
  | send text =>
    obtain ⟨htraffic, hpacing⟩ := sendBytes_traffic text (Utf8.encode text)
      (s.note .trace fun _ => s!"debug tx {Text.quote (String.ofList text)}")
    exact ⟨htraffic.trans (congrArg _ (List.append_nil _).symm), hpacing⟩
  | reply =>
    obtain ⟨t, pacing, transcript, log⟩ := s
    have htraffic := readReply_traffic t
    simp only [carryOut, receive]
    generalize readReply t = out at htraffic ⊢
    rcases out with ⟨fault | b, t'⟩
    · exact ⟨htraffic.trans (congrArg _ (List.append_nil _).symm), rfl⟩
    · exact ⟨htraffic.trans (congrArg _ (List.append_nil _).symm), rfl⟩
  | drain =>
    obtain ⟨⟨link, traffic⟩, pacing, transcript, log⟩ := s
    simp only [carryOut, discard, Intent.exchange, Link.readWithin, Tap.readWithin]
    rcases Link.readWithin link drainRoom drainLimit with ⟨fault | _ | ⟨b, bs⟩, link'⟩
    · exact ⟨Array.toList_push .., rfl⟩
    · exact ⟨Array.toList_push .., rfl⟩
    · exact ⟨Array.toList_push .., rfl⟩
  | settle micros => exact ⟨Array.toList_push .., rfl⟩
  | tell entry => exact ⟨(List.append_nil _).symm, rfl⟩
  | note record => exact ⟨(List.append_nil _).symm, rfl⟩

/-- **The traffic on the link is that of the exchanges.** -/
theorem perform_traffic (p : Procedure α) (s : Session (Tap σ)) :
    (s.perform p).2.link.traffic.toList
      = s.link.traffic.toList ++ (p.exchanges s).flatMap (Exchange.operations s.pacing) := by
  induction p generalizing s with
  | done a => exact (List.append_nil _).symm
  | step intent next ih =>
    obtain ⟨htraffic, hpacing⟩ := carryOut_traffic s intent
    rw [perform_step, ih, htraffic, hpacing, Procedure.exchanges_step, List.flatMap_append,
      List.append_assoc]

theorem dispatch_traffic (s : Session (Tap σ)) (loader : Loader) (words : List String) :
    (s.dispatch loader words).link.traffic.toList
      = s.link.traffic.toList ++ (s.exchanges loader words).flatMap
          (Exchange.operations s.pacing) := by
  rw [dispatch, exchanges]
  cases Command.parse words with
  | none => exact (List.append_nil _).symm
  | some command => exact perform_traffic (command.procedure loader) _

end Session

end

end BoardConsole.Debugger
