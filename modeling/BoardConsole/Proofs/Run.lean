import BoardConsole.Debugger.Session
import BoardConsole.Link.Tap
import BoardConsole.Monitor.Basic

/-!
# Procedures run on a board

A session surrounds a procedure with pauses, a log and a record of the traffic, and a board notices
none of them.  What remains is a *run*: the value of the procedure, the board afterwards, what the
user has been told and which bytes have gone over the wire.

- `Procedure.run`: the run of a procedure on a board, by recursion on the plan.
- `Procedure.run_bind`: runs compose, so a command is understood primitive by primitive.
- `Session.perform_untap`: a tap on the link changes nothing, for every link.
- `Session.perform_run`: **a session on a tapped board carries out exactly the run**, whatever its
  pacing and its log.
- `Session.dispatch_transfer`: a command that uses an object file is the run of its transfer.
-/

namespace BoardConsole

/-- The bytes put on the wire so far. -/
def Tap.sent {σ : Type} (t : Tap σ) : Bytes := t.traffic.toList.flatMap Operation.sent

namespace Debugger

/-! ## Sessions carry plans out one after another -/

namespace Session

variable {σ : Type} [Link σ] {α β : Type}

@[simp] theorem perform_done (a : α) (s : Session σ) : perform (.done a) s = (a, s) := rfl

theorem perform_step (intent : Intent) (next : intent.Answer → Procedure α) (s : Session σ) :
    perform (.step intent next) s
      = perform (next (s.carryOut intent).1) (s.carryOut intent).2 := rfl

theorem perform_bind (p : Procedure α) (f : α → Procedure β) (s : Session σ) :
    perform (p >>= f) s = perform (f (perform p s).1) (perform p s).2 := by
  induction p generalizing s with
  | done a => rfl
  | step intent next ih => exact ih _ _

end Session

/-! ## A tap changes nothing -/

namespace Session

variable {σ : Type} [Link σ] {α : Type}

/-- The session without the tap on its link. -/
def untap (s : Session (Tap σ)) : Session σ := ⟨s.link.link, s.pacing, s.transcript, s.log⟩

/-- The session with a tap on its link. -/
def tapped (s : Session σ) : Session (Tap σ) := ⟨⟨s.link, #[]⟩, s.pacing, s.transcript, s.log⟩

omit [Link σ] in
@[simp] theorem untap_tapped (s : Session σ) : s.tapped.untap = s := rfl

theorem sendByte_untap (s : Session (Tap σ)) (b : UInt8) :
    s.untap.sendByte b = ((s.sendByte b).1, (s.sendByte b).2.untap) := by
  obtain ⟨⟨link, traffic⟩, pacing, transcript, log⟩ := s
  simp only [untap, sendByte, Link.write, Tap.write, Link.remark, Link.delay, Tap.delay]
  rcases Link.write link [b] with ⟨fault | count, link⟩
  · rfl
  · cases pacing.charDelay <;> rfl

theorem sendBytes_untap (s : Session (Tap σ)) (bs : Bytes) :
    s.untap.sendBytes bs = (s.sendBytes bs).untap := by
  induction bs generalizing s with
  | nil => rfl
  | cons b bs ih =>
    simp only [sendBytes, sendByte_untap]
    rcases s.sendByte b with ⟨_ | fault, s⟩
    · exact ih s
    · rfl

theorem send_untap (s : Session (Tap σ)) (text : List Char) :
    s.untap.send text = (s.send text).untap :=
  sendBytes_untap (s.note .trace fun _ => s!"debug tx {Text.quote (String.ofList text)}") _

theorem readReply_untap (t : Tap σ) :
    readReply t.link = ((readReply t).1, (readReply t).2.link) := by
  obtain ⟨link, traffic⟩ := t
  simp only [readReply, readPair, Link.read, Tap.read]
  rcases Link.read link 2 with ⟨fault | _ | ⟨first, _ | ⟨second, rest⟩⟩, link⟩
  · rfl
  · rfl
  · dsimp only
    rcases Link.read link 1 with ⟨fault | _ | ⟨second, rest⟩, link⟩
    · rfl
    · rfl
    · dsimp only
      cases Hex.decodeByte [first, second] <;> rfl
  · dsimp only
    cases Hex.decodeByte [first, second] <;> rfl

theorem receive_untap (s : Session (Tap σ)) :
    s.untap.receive = (s.receive.1, s.receive.2.untap) := by
  obtain ⟨t, pacing, transcript, log⟩ := s
  simp only [untap, receive, readReply_untap]
  rcases readReply t with ⟨fault | b, t⟩ <;> rfl

theorem discard_untap (s : Session (Tap σ)) :
    s.untap.discard = (s.discard.1, s.discard.2.untap) := by
  obtain ⟨⟨link, traffic⟩, pacing, transcript, log⟩ := s
  simp only [untap, discard, Link.readWithin, Tap.readWithin]
  rcases Link.readWithin link drainRoom drainLimit with ⟨fault | _ | ⟨b, bs⟩, link⟩ <;> rfl

theorem carryOut_untap (s : Session (Tap σ)) (intent : Intent) :
    s.untap.carryOut intent = ((s.carryOut intent).1, (s.carryOut intent).2.untap) := by
  cases intent with
  | send text => exact congrArg (Prod.mk ()) (send_untap s text)
  | reply => exact receive_untap s
  | drain => exact discard_untap s
  | settle micros => rfl
  | tell entry => rfl
  | note record => rfl

/-- **A tap changes nothing**: without it a procedure has the same value and leaves the same
session. -/
theorem perform_untap (p : Procedure α) (s : Session (Tap σ)) :
    perform p s.untap = ((perform p s).1, (perform p s).2.untap) := by
  induction p generalizing s with
  | done a => rfl
  | step intent next ih =>
    rw [perform_step, perform_step, carryOut_untap]
    exact ih _ _

end Session

/-! ## Runs -/

/-- What a procedure comes to on a board. -/
structure Run (α : Type) where
  /-- The value it ends with. -/
  value : α
  /-- The board afterwards. -/
  board : Monitor
  /-- What the user has been told, first to last. -/
  told : List Entry
  /-- What has gone over the wire, first to last. -/
  sent : Bytes

namespace Run

variable {α β : Type}

/-- A run that goes on from the value and the board of another. -/
def andThen (r : Run α) (next : α → Monitor → Run β) : Run β where
  value := (next r.value r.board).value
  board := (next r.value r.board).board
  told := r.told ++ (next r.value r.board).told
  sent := r.sent ++ (next r.value r.board).sent

theorem andThen_assoc {γ : Type} (r : Run α) (f : α → Monitor → Run β) (g : β → Monitor → Run γ) :
    (r.andThen f).andThen g = r.andThen fun a m => (f a m).andThen g := by
  simp only [andThen, List.append_assoc]

end Run

/-- What the user is told when some stale bytes have been thrown away. -/
def discardedLines (count : Nat) : List Entry :=
  if count = 0 then []
  else [.line s!"Discarded {count} byte{plural count} from debug device."]

/-- One intent on a board. -/
def Intent.run : (intent : Intent) → Monitor → Run intent.Answer
  | .send text, m => ⟨(), m.receiveAll (Utf8.encode text), [], Utf8.encode text⟩
  | .reply, m =>
    match Session.readReply m with
    | (.ok b, m) => ⟨b, m, [], []⟩
    | (.error fault, m) => ⟨(0 : UInt8), m, [.line fault.message], []⟩
  | .drain, m =>
    let (bs, m) := m.drain drainRoom
    ⟨bs.length, m, discardedLines bs.length, []⟩
  | .settle _, m => ⟨(), m, [], []⟩
  | .tell entry, m => ⟨(), m, [entry], []⟩
  | .note _, m => ⟨(), m, [], []⟩

namespace Procedure

variable {α β : Type}

/-- The run of a procedure on a board. -/
def run : Procedure α → Monitor → Run α
  | .done a, m => ⟨a, m, [], []⟩
  | .step intent next, m => (intent.run m).andThen fun answer m => run (next answer) m

@[simp] theorem run_done (a : α) (m : Monitor) : run (.done a) m = ⟨a, m, [], []⟩ := rfl

@[simp] theorem run_pure (a : α) (m : Monitor) : run (pure a) m = ⟨a, m, [], []⟩ := rfl

theorem run_ask (intent : Intent) (m : Monitor) : run (Plan.ask intent) m = intent.run m := by
  show (intent.run m).andThen (fun answer m => (⟨answer, m, [], []⟩ : Run _)) = intent.run m
  simp only [Run.andThen, List.append_nil]

/-- Runs compose. -/
theorem run_bind (p : Procedure α) (f : α → Procedure β) (m : Monitor) :
    run (p >>= f) m = (run p m).andThen fun a m => run (f a) m := by
  induction p generalizing m with
  | done a => rfl
  | step intent next ih =>
    show (intent.run m).andThen (fun answer m => run (next answer >>= f) m) = _
    simp only [ih]
    exact (Run.andThen_assoc _ _ _).symm

/-- Runs compose, with both runs known. -/
theorem run_bind_of {p : Procedure α} {f : α → Procedure β} {m m₁ m₂ : Monitor} {a : α} {b : β}
    {told₁ told₂ : List Entry} {sent₁ sent₂ : Bytes} (h₁ : run p m = ⟨a, m₁, told₁, sent₁⟩)
    (h₂ : run (f a) m₁ = ⟨b, m₂, told₂, sent₂⟩) :
    run (p >>= f) m = ⟨b, m₂, told₁ ++ told₂, sent₁ ++ sent₂⟩ := by
  rw [run_bind, h₁]
  simp only [Run.andThen, h₂]

/-! ### The intents, one by one -/

@[simp] theorem run_send (text : List Char) (m : Monitor) :
    run (send text) m = ⟨(), m.receiveAll (Utf8.encode text), [], Utf8.encode text⟩ :=
  run_ask _ m

theorem run_reply (m : Monitor) : run reply m = Intent.run .reply m :=
  run_ask .reply m

@[simp] theorem run_settle (micros : Nat) (m : Monitor) :
    run (settle micros) m = ⟨(), m, [], []⟩ :=
  run_ask _ m

@[simp] theorem run_say (text : String) (m : Monitor) :
    run (say text) m = ⟨(), m, [.line text], []⟩ :=
  run_ask _ m

@[simp] theorem run_progress (text : String) (m : Monitor) :
    run (progress text) m = ⟨(), m, [.progress text], []⟩ :=
  run_ask _ m

@[simp] theorem run_note (level : Log.Level) (text : String) (m : Monitor) :
    run (note level text) m = ⟨(), m, [], []⟩ :=
  run_ask _ m

end Procedure

/-! ## Sessions carry out exactly the run -/

/-- A value and a session that a run on a board stands for, seen from the session it started in. -/
structure Session.Follows {α : Type} (s : Session (Tap Monitor)) (r : Run α)
    (out : α × Session (Tap Monitor)) : Prop where
  value : out.1 = r.value
  board : out.2.link.link = r.board
  transcript : out.2.transcript.toList = s.transcript.toList ++ r.told
  sent : out.2.link.sent = s.link.sent ++ r.sent

namespace Session

variable {α β : Type}

theorem Follows.andThen {s : Session (Tap Monitor)} {r : Run α} {out : α × Session (Tap Monitor)}
    {out' : β × Session (Tap Monitor)} (h : s.Follows r out) (next : α → Monitor → Run β)
    (h' : out.2.Follows (next out.1 out.2.link.link) out') : s.Follows (r.andThen next) out' := by
  obtain ⟨hv, hb, ht, hs⟩ := h
  rw [hv, hb] at h'
  refine ⟨h'.value, h'.board, ?_, ?_⟩
  · rw [h'.transcript, ht, List.append_assoc]
    rfl
  · rw [h'.sent, hs, List.append_assoc]
    rfl

/-- One byte reaches the board, whatever pause follows it. -/
theorem sendByte_follows (s : Session (Tap Monitor)) (b : UInt8) :
    (s.sendByte b).1 = none ∧ s.Follows ⟨(), s.link.link.receive b, [], [b]⟩
      ((), (s.sendByte b).2) := by
  obtain ⟨⟨m, traffic⟩, pacing, transcript, log⟩ := s
  simp only [sendByte, Link.write, Tap.write, Link.delay, Tap.delay]
  -- a pause is traffic on the tap, but nothing that was sent
  cases pacing.charDelay with
  | none =>
    refine ⟨rfl, rfl, rfl, (List.append_nil _).symm, ?_⟩
    simp [Tap.sent, Operation.sent, Except.isOk, Except.toBool]
  | some micros =>
    refine ⟨rfl, rfl, rfl, (List.append_nil _).symm, ?_⟩
    simp [Tap.sent, Operation.sent, Except.isOk, Except.toBool]

theorem sendBytes_follows (s : Session (Tap Monitor)) (bs : Bytes) :
    s.Follows ⟨(), s.link.link.receiveAll bs, [], bs⟩ ((), s.sendBytes bs) := by
  induction bs generalizing s with
  | nil => exact ⟨rfl, rfl, (List.append_nil _).symm, (List.append_nil _).symm⟩
  | cons b bs ih =>
    obtain ⟨hnone, hb⟩ := sendByte_follows s b
    -- a board takes every byte, so sending never ends early
    have hsend : s.sendBytes (b :: bs) = (s.sendByte b).2.sendBytes bs := by
      rw [sendBytes]
      split
      · rename_i heq
        rw [heq]
      · rename_i heq
        rw [heq] at hnone
        cases hnone
    rw [hsend]
    exact hb.andThen (fun _ m => ⟨(), m.receiveAll bs, [], bs⟩) (ih _)

/-- What a session says about its own log is not part of the run. -/
theorem follows_note (s : Session (Tap Monitor)) (level : Log.Level) (text : Unit → String) :
    s.Follows ⟨(), s.link.link, [], []⟩ ((), s.note level text) :=
  ⟨rfl, rfl, (List.append_nil _).symm, (List.append_nil _).symm⟩

/-- Reading a reply puts nothing on the wire. -/
theorem sent_readReply (t : Tap Monitor) : (readReply t).2.sent = t.sent := by
  obtain ⟨m, traffic⟩ := t
  simp only [readReply, readPair, Link.read, Tap.read]
  rcases m.drain 2 with ⟨_ | ⟨first, _ | ⟨second, rest⟩⟩, m⟩
  · simp [Tap.sent, Operation.sent]
  · dsimp only
    rcases m.drain 1 with ⟨_ | ⟨second, rest⟩, m⟩
    · simp [Tap.sent, Operation.sent]
    · dsimp only
      cases Hex.decodeByte [first, second] <;> simp [Tap.sent, Operation.sent]
  · dsimp only
    cases Hex.decodeByte [first, second] <;> simp [Tap.sent, Operation.sent]

theorem carryOut_follows (s : Session (Tap Monitor)) (intent : Intent) :
    s.Follows (intent.run s.link.link) (s.carryOut intent) := by
  cases intent with
  | send text =>
    exact (follows_note s _ _).andThen
      (fun _ m => ⟨(), m.receiveAll (Utf8.encode text), [], Utf8.encode text⟩)
      (sendBytes_follows _ _)
  | reply =>
    obtain ⟨t, pacing, transcript, log⟩ := s
    have hsent := sent_readReply t
    simp only [carryOut, receive, Intent.run, readReply_untap]
    rcases hr : readReply t with ⟨fault | b, t'⟩ <;> rw [hr] at hsent
    · exact ⟨rfl, rfl, Array.toList_push .., hsent.trans (List.append_nil _).symm⟩
    · exact ⟨rfl, rfl, (List.append_nil _).symm, hsent.trans (List.append_nil _).symm⟩
  | drain =>
    obtain ⟨⟨m, traffic⟩, pacing, transcript, log⟩ := s
    simp only [carryOut, discard, Intent.run, Link.readWithin, Tap.readWithin]
    rcases m.drain drainRoom with ⟨_ | ⟨b, bs⟩, m'⟩
    · exact ⟨rfl, rfl, (List.append_nil _).symm, by simp [Tap.sent, Operation.sent]⟩
    · exact ⟨rfl, rfl, by simp [tell, note, discardedLines],
        by simp [tell, note, Tap.sent, Operation.sent]⟩
  | settle micros =>
    refine ⟨rfl, rfl, (List.append_nil _).symm, ?_⟩
    simp [carryOut, wait, Link.delay, Tap.delay, Tap.sent, Operation.sent, Intent.run]
  | tell entry => exact ⟨rfl, rfl, Array.toList_push .., (List.append_nil _).symm⟩
  | note record => exact follows_note s _ _

/-- **A session on a tapped board carries out exactly the run**: same value and board, and the
transcript and the wire grow by what the run tells and sends. -/
theorem perform_run (p : Procedure α) (s : Session (Tap Monitor)) :
    s.Follows (p.run s.link.link) (perform p s) := by
  induction p generalizing s with
  | done a => exact ⟨rfl, rfl, (List.append_nil _).symm, (List.append_nil _).symm⟩
  | step intent next ih =>
    rw [perform_step]
    exact (carryOut_follows s intent).andThen (fun answer m => Procedure.run (next answer) m)
      (ih _ _)

end Session

/-! ## Commands -/

/-- Remarks in the log are not part of a run. -/
theorem run_notes (records : List Log.Record) (m : Monitor) :
    Procedure.run (notes records) m = ⟨(), m, [], []⟩ := by
  induction records with
  | nil => rfl
  | cons record rest ih =>
    rw [notes]
    exact Procedure.run_bind_of (Procedure.run_note ..) ih

namespace Session

variable {loader : Loader} {words : List String}

theorem dispatch_untap {σ : Type} [Link σ] (s : Session (Tap σ)) (loader : Loader)
    (words : List String) : s.untap.dispatch loader words = (s.dispatch loader words).untap := by
  unfold dispatch
  cases Command.parse words with
  | none => rfl
  | some command =>
    exact congrArg Prod.snd (perform_untap (command.procedure loader)
      (s.note .info fun _ => s!"debug command: {command.describe}"))

/-- A command carries out the run of its procedure. -/
theorem dispatch_run {command : Command} (s : Session (Tap Monitor))
    (hwords : Command.parse words = some command) :
    s.Follows (Procedure.run (command.procedure loader) s.link.link)
      ((), s.dispatch loader words) := by
  have h := perform_run (command.procedure loader)
    (s.note .info fun _ => s!"debug command: {command.describe}")
  unfold dispatch
  rw [hwords]
  exact ⟨rfl, h.board, h.transcript, h.sent⟩

/-- The board and the transcript after a command, on a link without a tap. -/
theorem dispatch_run_monitor {command : Command} (s : Session Monitor)
    (hwords : Command.parse words = some command) :
    (s.dispatch loader words).link = (Procedure.run (command.procedure loader) s.link).board ∧
      (s.dispatch loader words).transcript.toList
        = s.transcript.toList ++ (Procedure.run (command.procedure loader) s.link).told := by
  -- runs are known on a tapped link, and the tap can be taken off again
  have h : s.tapped.Follows (Procedure.run (command.procedure loader) s.link)
      ((), s.tapped.dispatch loader words) := dispatch_run s.tapped hwords
  have huntap := dispatch_untap s.tapped loader words
  rw [untap_tapped] at huntap
  rw [huntap]
  exact ⟨h.board, h.transcript⟩

/-- The last thing that a command tells. -/
theorem back?_of_told {σ : Type} {s t : Session σ} {told : List Entry} {entry : Entry}
    (h : t.transcript.toList = s.transcript.toList ++ (told ++ [entry])) :
    t.transcript.back? = some entry := by
  rw [← Array.getLast?_toList, h, ← List.append_assoc, List.getLast?_concat]

variable {p : Purpose} {file : String} {segments : List ObjectFile.Segment}

/-- A command that uses an object file has the run of its transfer. -/
theorem run_transferFile (hload : loader.load file = .ok segments) (m : Monitor) :
    Procedure.run (Command.procedure loader (.transfer p (some file))) m
      = Procedure.run (p.transfer segments) m := by
  show Procedure.run (transferFile loader p (some file)) m = _
  rw [transferFile, Procedure.run_bind, run_notes, hload]
  rfl

/-- A command that uses an object file is the run of its transfer. -/
theorem dispatch_transfer (s : Session (Tap Monitor))
    (hwords : Command.parse words = some (.transfer p (some file)))
    (hload : loader.load file = .ok segments) :
    s.Follows (Procedure.run (p.transfer segments) s.link.link) ((), s.dispatch loader words) := by
  rw [← run_transferFile hload]
  exact dispatch_run s hwords

theorem dispatch_transfer_monitor (s : Session Monitor)
    (hwords : Command.parse words = some (.transfer p (some file)))
    (hload : loader.load file = .ok segments) :
    (s.dispatch loader words).link = (Procedure.run (p.transfer segments) s.link).board ∧
      (s.dispatch loader words).transcript.toList
        = s.transcript.toList ++ (Procedure.run (p.transfer segments) s.link).told := by
  rw [← run_transferFile hload]
  exact dispatch_run_monitor s hwords

end Session

end Debugger

end BoardConsole
