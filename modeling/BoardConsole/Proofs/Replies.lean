import BoardConsole.Link.Script
import BoardConsole.Proofs.Verification
import Mathlib.Data.List.Forall2

/-!
# What a verification rests on

Over an arbitrary link a reply may fail, and a procedure then goes on with a zero.  So success is no
proof that every byte was read: a byte that should be zero also passes when nothing came back.  It
is a proof of everything else, and no failure stays unmentioned.

- `Delivery.Delivers`: a reply of two digits that stand for a byte.
- `Procedure.deliveries`: what the link delivers to a procedure, first to last.
- `Session.perform_told`: **every failed reply is told**, and nothing is told but that and what the
  procedure says.
- `verify_deliveries`: exactly which deliveries make a verify command succeed, for every link.
-/

namespace BoardConsole.Debugger

open ObjectFile (Segment)

/-! ## Replies as the link delivers them -/

/-- What a link delivers for a reply: a pair of bytes, or why there is none. -/
abbrev Delivery := Except Fault Bytes

namespace Delivery

/-- Two digits that stand for a byte. -/
def Delivers (d : Delivery) (b : UInt8) : Prop :=
  ∃ high low h l, d = .ok [high, low] ∧ Hex.digit? (Bytes.toChar high) = some h ∧
    Hex.digit? (Bytes.toChar low) = some l ∧ b = UInt8.ofNat (16 * h + l)

/-- The byte delivered, or why it is none. -/
def decode (d : Delivery) : Except ReplyFault UInt8 :=
  match d with
  | .error fault => .error (.link fault)
  | .ok pair =>
    match Hex.decodeByte pair with
    | .error reply => .error (.garbled reply)
    | .ok b => .ok b

/-- The byte that a procedure goes on with. -/
def value (d : Delivery) : UInt8 :=
  match d.decode with
  | .ok b => b
  | .error _ => 0

/-- What the user is told about a delivery. -/
def complaint (d : Delivery) : Option Entry :=
  match d.decode with
  | .ok _ => none
  | .error fault => some (.line fault.message)

theorem decode_eq_ok_iff {d : Delivery} {b : UInt8} : d.decode = .ok b ↔ d.Delivers b := by
  constructor
  · intro h
    rcases d with fault | pair
    · cases h
    · rw [decode] at h
      split at h
      · cases h
      · rename_i b' hpair
        cases h
        unfold Hex.decodeByte at hpair
        split at hpair
        · split at hpair
          · rename_i high low _ _ h l hh hl
            cases hpair
            exact ⟨high, low, h, l, rfl, hh, hl, rfl⟩
          · cases hpair
        · cases hpair
  · rintro ⟨high, low, h, l, rfl, hh, hl, rfl⟩
    simp only [decode, Hex.decodeByte, hh, hl]

/-- A procedure goes on with a byte that was delivered, or with a zero where none was. -/
theorem value_eq_iff {d : Delivery} {b : UInt8} :
    d.value = b ↔ d.Delivers b ∨ (b = 0 ∧ ∀ v, ¬ d.Delivers v) := by
  simp only [← decode_eq_ok_iff, value]
  cases d.decode with
  | ok v =>
    constructor
    · rintro rfl
      exact .inl rfl
    · rintro (hv | ⟨-, hnone⟩)
      · exact Except.ok.inj hv
      · exact absurd rfl (hnone v)
  | error fault =>
    constructor
    · rintro rfl
      exact .inr ⟨rfl, fun _ h => nomatch h⟩
    · rintro (hv | ⟨rfl, -⟩)
      · cases hv
      · rfl

end Delivery

/-! ## The deliveries of a procedure -/

section

variable {σ : Type} [Link σ] {α β : Type}

theorem Session.readReply_eq (link : σ) :
    readReply link = (Delivery.decode (readPair link).1, (readPair link).2) := by
  rw [readReply]
  rcases readPair link with ⟨fault | pair, link⟩
  · rfl
  · rw [Delivery.decode]
    dsimp only
    cases Hex.decodeByte pair <;> rfl

/-- What the link delivers to an intent. -/
def Intent.deliveries (s : Session σ) : Intent → List Delivery
  | .reply => [(Session.readPair s.link).1]
  | _ => []

namespace Procedure

/-- What the link delivers to a procedure, first to last. -/
def deliveries : Procedure α → Session σ → List Delivery
  | .done _, _ => []
  | .step intent next, s =>
    intent.deliveries s ++ deliveries (next (s.carryOut intent).1) (s.carryOut intent).2

theorem deliveries_step (intent : Intent) (next : intent.Answer → Procedure α) (s : Session σ) :
    deliveries (.step intent next) s
      = intent.deliveries s ++ deliveries (next (s.carryOut intent).1) (s.carryOut intent).2 := rfl

theorem deliveries_bind (p : Procedure α) (f : α → Procedure β) (s : Session σ) :
    deliveries (p >>= f) s
      = deliveries p s ++ deliveries (f (s.perform p).1) (s.perform p).2 := by
  induction p generalizing s with
  | done a => rfl
  | step intent next ih =>
    rw [Plan.step_bind, deliveries_step, ih, ← List.append_assoc]
    rfl

end Procedure

/-- What the link delivers to a command. -/
def Session.deliveries (s : Session σ) (loader : Loader) (words : List String) : List Delivery :=
  match Command.parse words with
  | none => []
  | some command =>
    Procedure.deliveries (command.procedure loader)
      (s.note .info fun _ => s!"debug command: {command.describe}")

/-! ## What the user is told -/

/-- What a session tells by itself. -/
inductive Incident : Entry → Prop
  | unsent (fault : Fault) : Incident (.line s!"Error writing to debug device: {fault.message}")
  | unread (fault : ReplyFault) : Incident (.line fault.message)
  | discarded (count : Nat) :
    Incident (.line s!"Discarded {count} byte{plural count} from debug device.")

namespace Procedure

/-- Every intent that a procedure may have has a certain property. -/
def Only (P : Intent → Prop) : Procedure α → Prop
  | .done _ => True
  | .step intent next => P intent ∧ ∀ a, Only P (next a)

variable {P : Intent → Prop}

theorem only_pure (a : α) : Only P (pure a) := trivial

theorem only_ask {intent : Intent} (h : P intent) : Only P (Plan.ask intent) :=
  ⟨h, fun _ => trivial⟩

theorem Only.bind {p : Procedure α} {f : α → Procedure β} (hp : Only P p)
    (hf : ∀ a, Only P (f a)) : Only P (p >>= f) := by
  induction p with
  | done a => exact hf a
  | step intent next ih => exact ⟨hp.1, fun a => ih a (hp.2 a)⟩

/-- Who asks for no reply takes no delivery. -/
theorem Only.deliveries_eq {p : Procedure α} (h : Only (· ≠ .reply) p) (s : Session σ) :
    p.deliveries s = [] := by
  induction p generalizing s with
  | done a => rfl
  | step intent next ih =>
    have hintent : intent.deliveries s = [] := by
      cases intent with
      | reply => exact absurd rfl h.1
      | _ => rfl
    rw [deliveries_step, hintent, List.nil_append]
    exact ih _ (h.2 _) _

end Procedure

namespace Session

/-- Sending fails at most once, and tells so. -/
theorem sendBytes_transcript (bs : Bytes) (s : Session σ) :
    (s.sendBytes bs).transcript = s.transcript ∨ ∃ fault : Fault, (s.sendBytes bs).transcript
      = s.transcript.push (.line s!"Error writing to debug device: {fault.message}") := by
  induction bs generalizing s with
  | nil => exact .inl rfl
  | cons b bs ih =>
    have hbyte : (s.sendByte b).2.transcript = s.transcript := by
      obtain ⟨link, pacing, transcript, log⟩ := s
      simp only [sendByte]
      rcases Link.write link [b] with ⟨fault | count, link⟩
      · rfl
      · cases pacing.charDelay <;> rfl
    -- a byte tells nothing by itself; the first refusal ends the string
    rw [sendBytes]
    generalize s.sendByte b = out at hbyte
    rw [← hbyte]
    rcases out with ⟨_ | fault, s'⟩
    · exact ih s'
    · exact .inr ⟨fault, rfl⟩

/-- One intent tells what it says, or what went wrong with it. -/
theorem carryOut_told (s : Session σ) (intent : Intent) :
    ∃ told, (s.carryOut intent).2.transcript.toList = s.transcript.toList ++ told ∧
      ((intent.deliveries s).filterMap Delivery.complaint).Sublist told ∧
      ∀ entry ∈ told, Incident entry ∨ intent = .tell entry := by
  cases intent with
  | send text =>
    rcases sendBytes_transcript (Utf8.encode text)
      (s.note .trace fun _ => s!"debug tx {Text.quote (String.ofList text)}") with h | ⟨fault, h⟩
    · exact ⟨[], by rw [List.append_nil]; exact congrArg Array.toList h, List.Sublist.slnil,
        fun _ he => nomatch he⟩
    · refine ⟨[_], (congrArg Array.toList h).trans (Array.toList_push ..), List.nil_sublist _, ?_⟩
      exact List.forall_mem_singleton.mpr (.inl (.unsent fault))
  | reply =>
    -- the delivery and its complaint come from the same decoding
    obtain ⟨link, pacing, transcript, log⟩ := s
    show ∃ told, (receive ⟨link, pacing, transcript, log⟩).2.transcript.toList = _ ∧
      ([(readPair link).1].filterMap Delivery.complaint).Sublist told ∧ _
    rw [receive, readReply_eq]
    rcases hd : Delivery.decode (readPair link).1 with fault | b
    · have hcomplaint : Delivery.complaint (readPair link).1 = some (.line fault.message) := by
        rw [Delivery.complaint, hd]
      refine ⟨[.line fault.message], Array.toList_push .., ?_, ?_⟩
      · rw [List.filterMap_cons_some hcomplaint]
        exact .refl _
      · exact List.forall_mem_singleton.mpr (.inl (.unread fault))
    · have hcomplaint : Delivery.complaint (readPair link).1 = none := by
        rw [Delivery.complaint, hd]
      refine ⟨[], (List.append_nil _).symm, ?_, fun _ he => nomatch he⟩
      rw [List.filterMap_cons_none hcomplaint]
      exact .refl _
  | drain =>
    obtain ⟨link, pacing, transcript, log⟩ := s
    simp only [carryOut, discard]
    rcases Link.readWithin link drainRoom drainLimit with ⟨fault | _ | ⟨b, bs⟩, link'⟩
    · exact ⟨[], (List.append_nil _).symm, List.nil_sublist _, fun _ he => nomatch he⟩
    · exact ⟨[], (List.append_nil _).symm, List.nil_sublist _, fun _ he => nomatch he⟩
    · refine ⟨[_], Array.toList_push .., List.nil_sublist _, ?_⟩
      exact List.forall_mem_singleton.mpr (.inl (.discarded (b :: bs).length))
  | settle micros =>
    exact ⟨[], (List.append_nil _).symm, List.nil_sublist _, fun _ he => nomatch he⟩
  | tell entry =>
    refine ⟨[entry], Array.toList_push .., List.nil_sublist _, ?_⟩
    exact List.forall_mem_singleton.mpr (.inr rfl)
  | note record => exact ⟨[], (List.append_nil _).symm, List.nil_sublist _, fun _ he => nomatch he⟩

/-- **Every failed reply is told**, in order, and besides what a procedure says only what went
wrong is told. -/
theorem perform_told (p : Procedure α) (s : Session σ) :
    ∃ told, (s.perform p).2.transcript.toList = s.transcript.toList ++ told ∧
      ((p.deliveries s).filterMap Delivery.complaint).Sublist told ∧
      ∀ P, Procedure.Only P p → ∀ entry ∈ told, Incident entry ∨ P (.tell entry) := by
  induction p generalizing s with
  | done a => exact ⟨[], (List.append_nil _).symm, List.nil_sublist _, fun _ _ _ he => nomatch he⟩
  | step intent next ih =>
    obtain ⟨told₁, htranscript₁, hcomplaints₁, hall₁⟩ := carryOut_told s intent
    obtain ⟨told₂, htranscript₂, hcomplaints₂, hall₂⟩ := ih (s.carryOut intent).1
      (s.carryOut intent).2
    refine ⟨told₁ ++ told₂, ?_, ?_, fun P hP entry hentry => ?_⟩
    · rw [perform_step, htranscript₂, htranscript₁, List.append_assoc]
    · rw [Procedure.deliveries_step, List.filterMap_append]
      exact hcomplaints₁.append hcomplaints₂
    · rcases List.mem_append.mp hentry with h | h
      · refine (hall₁ entry h).imp_right fun htell => ?_
        rw [← htell]
        exact hP.1
      · exact hall₂ P (hP.2 _) entry h

/-- A reply that a procedure asks for is the delivery's value. -/
theorem receive_value (s : Session σ) : s.receive.1 = Delivery.value (readPair s.link).1 := by
  obtain ⟨link, pacing, transcript, log⟩ := s
  rw [receive, readReply_eq, Delivery.value]
  cases Delivery.decode (readPair link).1 <;> rfl

end Session

/-! ## Deliveries compared with bytes -/

/-- Some delivery has not the value it should have. -/
inductive Refuted : List Delivery → Bytes → Prop
  | head {d : Delivery} {b : UInt8} {ds : List Delivery} {bs : Bytes} (h : d.value ≠ b) :
    Refuted (d :: ds) (b :: bs)
  | tail {d : Delivery} {b : UInt8} {ds : List Delivery} {bs : Bytes} (h : Refuted ds bs) :
    Refuted (d :: ds) (b :: bs)

theorem Refuted.append_right {ds : List Delivery} {bs : Bytes} (h : Refuted ds bs) (cs : Bytes) :
    Refuted ds (bs ++ cs) := by
  induction h with
  | head h => exact .head h
  | tail _ ih => exact .tail ih

theorem Refuted.append_left {R : Delivery → UInt8 → Prop} {ds es : List Delivery} {bs cs : Bytes}
    (h : Refuted ds bs) (hfront : List.Forall₂ R es cs) : Refuted (es ++ ds) (cs ++ bs) := by
  induction hfront with
  | nil => exact h
  | cons _ _ ih => exact .tail ih

theorem Refuted.not_forall₂ {ds : List Delivery} {bs : Bytes} (h : Refuted ds bs) :
    ¬ List.Forall₂ (fun d b => d.value = b) ds bs := by
  induction h with
  | head h => exact fun hall => h (List.forall₂_cons.mp hall).1
  | tail _ ih => exact fun hall => ih (List.forall₂_cons.mp hall).2

/-- What a comparison comes to: it goes on if all deliveries have the values they should have, and
is called off for one that has not. -/
def Outcome : Flow → List Delivery → Bytes → Prop
  | .onward, ds, bs => List.Forall₂ (fun d b => d.value = b) ds bs
  | .abort, ds, bs => Refuted ds bs

variable (σ) in
/-- The procedure compares deliveries with certain bytes. -/
def Compares (p : Procedure Flow) (bs : Bytes) : Prop :=
  ∀ s : Session σ, Outcome (s.perform p).1 (p.deliveries s) bs

namespace Compares

/-- Preparations that ask for no reply. -/
theorem after {p : Procedure α} {q : α → Procedure Flow} {bs : Bytes}
    (hp : Procedure.Only (· ≠ .reply) p) (hq : ∀ a, Compares σ (q a) bs) :
    Compares σ (p >>= q) bs := by
  intro s
  rw [Session.perform_bind, Procedure.deliveries_bind, hp.deliveries_eq, List.nil_append]
  exact hq _ _

/-- One comparison and, unless it is called off, another. -/
theorem proceed {p next : Procedure Flow} {bs cs : Bytes} (hp : Compares σ p bs)
    (hnext : Compares σ next cs) : Compares σ (p >>= Purpose.proceed next) (bs ++ cs) := by
  intro s
  have h := hp s
  rw [Session.perform_bind, Procedure.deliveries_bind]
  generalize s.perform p = out at h ⊢
  rcases out with ⟨flow, s'⟩
  cases flow with
  | onward =>
    have h' := hnext s'
    show Outcome (s'.perform next).1 (_ ++ next.deliveries s') (bs ++ cs)
    generalize (s'.perform next).1 = flow' at h'
    cases flow' with
    | onward => exact List.rel_append h h'
    | abort => exact Refuted.append_left h' h
  | abort =>
    show Refuted (p.deliveries s ++ []) (bs ++ cs)
    rw [List.append_nil]
    exact Refuted.append_right h cs

end Compares

/-! ## The procedures of verification -/

namespace Procedure

variable {P : Intent → Prop}

section

variable (hsend : ∀ text, P (.send text))
include hsend

theorem only_selectBank (bank : Nat) : Only P (selectBank bank) :=
  (only_ask (hsend _)).bind fun _ => only_ask (hsend _)

theorem only_setAddress (address : Nat) : Only P (setAddress address) :=
  (only_selectBank hsend _).bind fun _ => (only_ask (hsend _)).bind fun _ => only_ask (hsend _)

theorem only_point (p : Purpose) (address : Nat) : Only P (p.point address) := by
  cases p with
  | flash => exact only_selectBank hsend _
  | program => exact only_setAddress hsend _
  | verify => exact only_setAddress hsend _
  | verifyRom => exact only_setAddress hsend _

theorem only_aim (p : Purpose) (base index : Nat) : Only P (p.aim base index) := by
  rw [Purpose.aim]
  split
  · exact only_point hsend p _
  · exact only_pure _

end

theorem only_report (hprogress : ∀ text, P (.tell (.progress text))) (p : Purpose)
    (index total : Nat) : Only P (p.report index total) := by
  rw [Purpose.report]
  split
  · exact only_ask (hprogress _)
  · exact only_pure _

end Procedure

namespace Purpose

open Procedure

/-- One byte is compared with one delivery. -/
theorem compares_check (a : Nat) (b : UInt8) : Compares σ (check a b) [b] := by
  intro s
  have hvalue : (s.perform fetchByte).1 = Delivery.value (Session.readPair (s.send ['@']).link).1 :=
    (s.send ['@']).receive_value
  have hdeliveries : fetchByte.deliveries s = [(Session.readPair (s.send ['@']).link).1] := rfl
  rw [check, Session.perform_bind, deliveries_bind, hvalue, hdeliveries]
  generalize (Session.readPair (s.send ['@']).link).1 = d
  by_cases hb : Delivery.value d = b
  · rw [if_pos hb]
    exact .cons hb .nil
  · rw [if_neg hb]
    exact Refuted.head hb

variable {p : Purpose} (hp : p.compares = true)
include hp

/-- Bytes are compared with one delivery each, by induction on what is left of them. -/
theorem compares_bytes (base total : Nat) (data : Bytes) (index : Nat) :
    Compares σ (p.bytes base total index data) data := by
  induction data generalizing index with
  | nil => exact fun _ => .nil
  | cons b rest ih =>
    rw [bytes_cons, byte_of_compares hp]
    refine .after (only_report (fun _ => Intent.noConfusion) p _ _) fun _ => ?_
    refine .after (only_aim (fun _ => Intent.noConfusion) p _ _) fun _ => ?_
    exact (compares_check _ b).proceed (ih (index + 1))

theorem compares_segments (segments : List Segment) (number : Nat) :
    Compares σ (p.segments number segments) (segments.flatMap (·.data)) := by
  induction segments generalizing number with
  | nil => exact fun _ => .nil
  | cons seg rest ih =>
    rw [segments_cons, List.flatMap_cons]
    refine .after (only_ask Intent.noConfusion) fun _ => Compares.proceed ?_ ?_
    · exact .after (only_point (fun _ => Intent.noConfusion) p _) fun _ =>
        compares_bytes hp _ _ seg.data 0
    · exact .after (only_ask Intent.noConfusion) fun _ => ih (number + 1)

end Purpose

/-! ## The verdict -/

/-- Anything but saying that verification succeeded. -/
def Quiet (intent : Intent) : Prop := intent ≠ .tell (.line "Verify complete!")

theorem quiet_send (text : List Char) : Quiet (.send text) := Intent.noConfusion

theorem quiet_line {text : String} (h : Entry.line text ≠ .line "Verify complete!") :
    Quiet (.tell (.line text)) :=
  fun heq => h (Intent.tell.inj heq)

theorem take_message (fault : ReplyFault) : fault.message.toList.take 1 = ['E'] := by
  cases fault with
  | link fault =>
    show (s!"Error reading from debug device: {fault.message}").toList.take 1 = ['E']
    rw [String.toList_append]
    rfl
  | garbled reply =>
    show (s!"Error parsing data from debug device: {reply.message}").toList.take 1 = ['E']
    rw [String.toList_append]
    rfl

/-- What goes wrong is not told as success. -/
theorem Incident.ne_complete {entry : Entry} (h : Incident entry) :
    entry ≠ .line "Verify complete!" := by
  cases h with
  | unsent fault =>
    have hstart : (s!"Error writing to debug device: {fault.message}").toList.take 1 = ['E'] := by
      rw [String.toList_append]
      rfl
    exact Purpose.line_ne_complete hstart (by decide)
  | unread fault => exact Purpose.line_ne_complete (take_message fault) (by decide)
  | discarded count =>
    have hstart : (s!"Discarded {count} byte{plural count} from debug device.").toList.take 1
        = ['D'] := by
      simp only [String.toList_append, List.append_assoc]
      rfl
    exact Purpose.line_ne_complete hstart (by decide)

namespace Purpose

open Procedure

theorem only_proceed {P : Intent → Prop} {p next : Procedure Flow} (hp : Only P p)
    (hnext : Only P next) : Only P (p >>= proceed next) := by
  refine hp.bind fun flow => ?_
  cases flow with
  | onward => exact hnext
  | abort => exact only_pure _

theorem only_check (a : Nat) (b : UInt8) : Only Quiet (check a b) := by
  refine Only.bind ((only_ask (quiet_send _)).bind fun _ => only_ask Intent.noConfusion)
    fun actual => ?_
  split
  · exact only_pure _
  · refine Only.bind (only_ask Intent.noConfusion) fun _ => ?_
    exact Only.bind (only_ask (quiet_line (failure_ne_complete a))) fun _ => only_pure _

variable {p : Purpose} (hp : p.compares = true)
include hp

theorem announcement_ne_complete (number : Nat) (seg : Segment) :
    Entry.line (p.announcement number seg) ≠ .line "Verify complete!" := by
  have hstart : (p.announcement number seg).toList.take 7 = "Verifyi".toList := by
    rw [announcement, hp]
    simp only [String.toList_append, List.append_assoc]
    rfl
  exact line_ne_complete hstart (by decide)

theorem only_bytes (base total : Nat) (data : Bytes) (index : Nat) :
    Only Quiet (p.bytes base total index data) := by
  induction data generalizing index with
  | nil => exact only_pure _
  | cons b rest ih =>
    rw [bytes_cons, byte_of_compares hp]
    refine (only_report (fun _ h => nomatch Intent.tell.inj h) p _ _).bind fun _ => ?_
    refine (only_aim quiet_send p _ _).bind fun _ => ?_
    exact only_proceed (only_check _ b) (ih (index + 1))

theorem only_segments (segments : List Segment) (number : Nat) :
    Only Quiet (p.segments number segments) := by
  have hdone : Entry.line "Segment complete!" ≠ .line "Verify complete!" := by decide
  induction segments generalizing number with
  | nil => exact only_pure _
  | cons seg rest ih =>
    rw [segments_cons]
    refine Only.bind (only_ask (quiet_line (announcement_ne_complete hp number seg))) fun _ => ?_
    refine only_proceed ?_ ?_
    · exact (only_point quiet_send p _).bind fun _ => only_bytes hp _ _ seg.data 0
    · exact Only.bind (only_ask (quiet_line hdone)) fun _ => ih (number + 1)

omit hp in
theorem only_notes {P : Intent → Prop} (hnote : ∀ record, P (.note record))
    (records : List Log.Record) : Only P (notes records) := by
  induction records with
  | nil => exact only_pure _
  | cons record rest ih => exact Only.bind (only_ask (hnote _)) fun _ => ih

theorem only_prepare {P : Intent → Prop} (hsay : P (.tell (.line "Verifying..."))) :
    Only P p.prepare := by
  cases p with
  | program => cases hp
  | flash => cases hp
  | verify => exact only_pure _
  | verifyRom => exact only_ask hsay

omit hp in
/-- A command that compares an object file, up to its verdict. -/
def comparison (p : Purpose) (records : List Log.Record) (segments : List Segment) :
    Procedure Flow :=
  notes records >>= fun _ => halt >>= fun _ => p.prepare >>= fun _ => p.segments 0 segments

omit hp in
theorem transferFile_eq {loader : Loader} {file : String} {segments : List Segment}
    (hload : loader.load file = .ok segments) :
    transferFile loader p (some file)
      = p.comparison (loader.remarks file) segments >>= p.conclude := by
  rw [transferFile, hload, comparison]
  simp only [Plan.bind_bind, transfer_eq]

theorem compares_comparison (records : List Log.Record) (segments : List Segment) :
    Compares σ (p.comparison records segments) (segments.flatMap (·.data)) := by
  refine .after (only_notes (fun _ => Intent.noConfusion) records) fun _ => ?_
  refine .after (only_ask Intent.noConfusion) fun _ => ?_
  exact .after (only_prepare hp Intent.noConfusion) fun _ => compares_segments hp segments 0

theorem only_comparison (records : List Log.Record) (segments : List Segment) :
    Only Quiet (p.comparison records segments) := by
  have hverifying : Entry.line "Verifying..." ≠ .line "Verify complete!" := by decide
  refine (only_notes (fun _ => Intent.noConfusion) records).bind fun _ => ?_
  refine Only.bind (only_ask (quiet_send _)) fun _ => ?_
  exact (only_prepare hp (quiet_line hverifying)).bind fun _ => only_segments hp segments 0

end Purpose

variable {p : Purpose} {loader : Loader} {words : List String} {file : String}
  {segments : List Segment}

/-- **What a successful verification is worth**, over any link.  It says that the bytes of the file
have been answered one by one and in order, each with two digits that stand for it, except that a
zero may not have been answered at all; and every answer that failed is told by a line of its
own. -/
theorem verify_deliveries (s : Session σ) (hp : p.compares = true)
    (hwords : Command.parse words = some (.transfer p (some file)))
    (hload : loader.load file = .ok segments) :
    ∃ told, (s.dispatch loader words).transcript.toList = s.transcript.toList ++ told ∧
      (.line "Verify complete!" ∈ told ↔
        List.Forall₂ (fun (d : Delivery) b => d.Delivers b ∨ (b = 0 ∧ ∀ v, ¬ d.Delivers v))
          (s.deliveries loader words) (segments.flatMap (·.data))) ∧
      ((s.deliveries loader words).filterMap Delivery.complaint).Sublist told := by
  have hprocedure : Command.procedure loader (.transfer p (some file))
      = p.comparison (loader.remarks file) segments >>= p.conclude :=
    Purpose.transferFile_eq hload
  simp only [Session.dispatch, Session.deliveries, hwords, Session.execute, hprocedure,
    Session.perform_bind, Procedure.deliveries_bind, ← Delivery.value_eq_iff]
  have htranscript₀ : (s.note .info fun _ =>
      s!"debug command: {(Command.transfer p (some file)).describe}").transcript
        = s.transcript := rfl
  generalize s.note .info (fun _ => s!"debug command: {(Command.transfer p (some file)).describe}")
    = s₀ at htranscript₀ ⊢
  obtain ⟨told, htranscript, hcomplaints, honly⟩ :=
    s₀.perform_told (p.comparison (loader.remarks file) segments)
  have hquiet : Entry.line "Verify complete!" ∉ told := by
    intro hmem
    rcases honly _ (Purpose.only_comparison hp _ _) _ hmem with hincident | htell
    · exact hincident.ne_complete rfl
    · exact htell rfl
  -- only the verdict is left, which takes no delivery
  have houtcome := Purpose.compares_comparison hp (loader.remarks file) segments s₀
  rw [htranscript₀] at htranscript
  generalize s₀.perform (p.comparison (loader.remarks file) segments) = out at *
  rcases out with ⟨flow, s₁⟩
  cases flow with
  | onward =>
    refine ⟨told ++ [.line "Verify complete!"], ?_, iff_of_true ?_ ?_, ?_⟩
    · rw [← List.append_assoc, ← htranscript, ← Purpose.completion_of_compares hp]
      exact Array.toList_push ..
    · exact List.mem_append_right _ (List.mem_singleton_self _)
    · show List.Forall₂ _ (_ ++ []) _
      rw [List.append_nil]
      exact houtcome
    · show ((_ ++ []).filterMap Delivery.complaint).Sublist _
      rw [List.append_nil]
      exact hcomplaints.trans (List.sublist_append_left ..)
  | abort =>
    refine ⟨told, htranscript, iff_of_false hquiet ?_, ?_⟩
    · show ¬ List.Forall₂ _ (_ ++ []) _
      rw [List.append_nil]
      exact Refuted.not_forall₂ houtcome
    · show ((_ ++ []).filterMap Delivery.complaint).Sublist _
      rw [List.append_nil]
      exact hcomplaints

end

/-- A reply that is no number passes for a zero, and one that comes in two pieces for its byte. -/
theorem verify_deliveries_garbled :
    let segments : List Segment := [⟨0xFFFF, [0, 1]⟩]
    let s : Session Script :=
      ⟨{ reads := [.ok [0x7A, 0x7A], .ok [0x30], .ok [0x31]] }, ⟨0⟩, #[], .quiet⟩
    ∃ told, (s.dispatch (.fixed segments) ["verify", "a"]).transcript.toList = [] ++ told ∧
      .line "Verify complete!" ∈ told := by
  intro segments s
  have hwords : Command.parse ["verify", "a"] = some (.transfer .verify (some "a")) := by
    decide +kernel
  have hload : (Loader.fixed segments).load "a" = .ok segments := rfl
  have hdeliveries : s.deliveries (.fixed segments) ["verify", "a"]
      = [.ok [0x7A, 0x7A], .ok [0x30, 0x31]] := by decide +kernel
  have hdigits : Delivery.Delivers (.ok [0x30, 0x31]) 1 := ⟨0x30, 0x31, 0, 1, rfl, rfl, rfl, rfl⟩
  have hgarbled : Delivery.value (.ok [0x7A, 0x7A]) = 0 := by decide +kernel
  obtain ⟨told, htranscript, hiff, -⟩ := verify_deliveries s rfl hwords hload
  rw [hdeliveries] at hiff
  refine ⟨told, htranscript, hiff.mpr (.cons ?_ (.cons (.inl hdigits) .nil))⟩
  exact Delivery.value_eq_iff.mp hgarbled

/-- A zero that was never answered passes too. -/
theorem verify_unanswered_zero :
    let segments : List Segment := [⟨0x1000, [0]⟩]
    let s : Session Script := ⟨{}, ⟨0⟩, #[], .quiet⟩
    (s.dispatch (.fixed segments) ["verify", "a"]).transcript.back?
        = some (.line "Verify complete!") ∧
      s.deliveries (.fixed segments) ["verify", "a"] = [.error .timeout] ∧
      ¬ List.Forall₂ Delivery.Delivers (s.deliveries (.fixed segments) ["verify", "a"])
        (segments.flatMap (·.data)) := by
  intro segments s
  have hdeliveries : s.deliveries (.fixed segments) ["verify", "a"] = [.error .timeout] := by
    decide +kernel
  refine ⟨by decide +kernel, hdeliveries, fun hall => ?_⟩
  rw [hdeliveries] at hall
  obtain ⟨_, _, _, _, hok, -⟩ := (List.forall₂_cons.mp hall).1
  cases hok

end BoardConsole.Debugger
