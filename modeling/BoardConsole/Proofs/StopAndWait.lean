import BoardConsole.Proofs.Conversation
import BoardConsole.Proofs.Frames

/-!
# The block protocols stop and wait

A sender waits to be asked for the first block and then delivers its frames one at a time: a frame
is sent again until it is accepted, ten times at most, and the next one is sent only then.

- `Opening`, `Exchange`, `Exchanges`: how the receiver asks, how one frame is delivered, and how
  several are, each with everything that happens and the result.
- `Dialogue.happens_awaitStart`, `Dialogue.happens_sendBlock`: the loops of the sender do exactly
  that.
- `Conversation.written_eq`: what is sent meanwhile.
- `Dialogue.sendFile_stops_and_waits`: **the result of a transfer is the one its events have as a
  conversation about the frames of the file**.
-/

namespace BoardConsole.Transfer

open Dialogue (cancel endOfFile)

/-! ## How the receiver asks -/

/-- The check that a byte asks for. -/
def request? (b : UInt8) : Option Check :=
  if b = 0x43 then some .crc16 else if b = 0x15 then some .sum else none

/-- The byte neither asks for anything nor calls the transfer off. -/
def isNoise (b : UInt8) : Bool := request? b = none && b ≠ cancel

/-- What happens until the receiver asks, with room for some bytes. -/
inductive Opening (n : Nat) : Except Failure Check → List Event → Prop
  /-- It asks after some noise. -/
  | asked {noise : Bytes} {b : UInt8} {check : Check} (hnoise : ∀ x ∈ noise, isNoise x = true)
    (hn : noise.length < n) (hb : request? b = some check) :
    Opening n (.ok check) (noise.map .received ++ [.received b])
  /-- It calls the transfer off. -/
  | cancelled {noise : Bytes} (hnoise : ∀ x ∈ noise, isNoise x = true) (hn : noise.length < n) :
    Opening n (.error (.fault .cancelled)) (noise.map .received ++ [.received cancel])
  /-- The port fails. -/
  | broken {noise : Bytes} (hnoise : ∀ x ∈ noise, isNoise x = true) (hn : noise.length < n)
    (fault : Fault) : Opening n (.error (.fault fault)) (noise.map .received ++ [.broken fault])
  /-- There is nothing but noise. -/
  | exhausted {noise : Bytes} (hnoise : ∀ x ∈ noise, isNoise x = true) (hn : noise.length = n) :
    Opening n (.error .noStart) (noise.map .received)

theorem isNoise_iff {b : UInt8} : isNoise b = true ↔ request? b = none ∧ b ≠ cancel := by
  rw [isNoise, Bool.and_eq_true, decide_eq_true_iff, decide_eq_true_iff]

theorem request?_cancel : request? cancel = none := by decide

namespace Opening

variable {n : Nat} {r : Except Failure Check} {es : List Event}

theorem cons (h : Opening n r es) {b : UInt8} (hb : isNoise b = true) :
    Opening (n + 1) r (.received b :: es) := by
  cases h with
  | asked hnoise hn hask =>
    exact .asked (List.forall_mem_cons.mpr ⟨hb, hnoise⟩) (Nat.succ_lt_succ hn) hask
  | cancelled hnoise hn =>
    exact .cancelled (List.forall_mem_cons.mpr ⟨hb, hnoise⟩) (Nat.succ_lt_succ hn)
  | broken hnoise hn fault =>
    exact .broken (List.forall_mem_cons.mpr ⟨hb, hnoise⟩) (Nat.succ_lt_succ hn) fault
  | exhausted hnoise hn =>
    exact .exhausted (List.forall_mem_cons.mpr ⟨hb, hnoise⟩) (congrArg Nat.succ hn)

theorem zero_iff : Opening 0 r es ↔ r = .error .noStart ∧ es = [] := by
  constructor
  · intro h
    cases h with
    | asked _ hn _ => exact absurd hn (Nat.not_lt_zero _)
    | cancelled _ hn => exact absurd hn (Nat.not_lt_zero _)
    | broken _ hn _ => exact absurd hn (Nat.not_lt_zero _)
    | exhausted _ hn =>
      rw [List.eq_nil_of_length_eq_zero hn]
      exact ⟨rfl, rfl⟩
  · rintro ⟨rfl, rfl⟩
    exact @exhausted 0 [] (fun _ h => absurd h List.not_mem_nil) rfl

/-- The first thing that happens. -/
theorem succ_iff : Opening (n + 1) r es ↔
    (∃ b rest, es = .received b :: rest ∧
      ((∃ check, request? b = some check ∧ r = .ok check ∧ rest = []) ∨
        (b = cancel ∧ r = .error (.fault .cancelled) ∧ rest = []) ∨
        (isNoise b = true ∧ Opening n r rest))) ∨
      ∃ fault, es = [.broken fault] ∧ r = .error (.fault fault) := by
  have hnil : ∀ x ∈ ([] : Bytes), isNoise x = true := fun _ h => absurd h List.not_mem_nil
  constructor
  · intro h
    cases h with
    | @asked noise b check hnoise hn hask =>
      cases noise with
      | nil => exact .inl ⟨b, [], rfl, .inl ⟨check, hask, rfl, rfl⟩⟩
      | cons x noise =>
        obtain ⟨hx, hnoise⟩ := List.forall_mem_cons.mp hnoise
        exact .inl ⟨x, _, rfl, .inr (.inr ⟨hx, .asked hnoise (Nat.lt_of_succ_lt_succ hn) hask⟩)⟩
    | @cancelled noise hnoise hn =>
      cases noise with
      | nil => exact .inl ⟨cancel, [], rfl, .inr (.inl ⟨rfl, rfl, rfl⟩)⟩
      | cons x noise =>
        obtain ⟨hx, hnoise⟩ := List.forall_mem_cons.mp hnoise
        exact .inl ⟨x, _, rfl, .inr (.inr ⟨hx, .cancelled hnoise (Nat.lt_of_succ_lt_succ hn)⟩)⟩
    | @broken noise hnoise hn fault =>
      cases noise with
      | nil => exact .inr ⟨fault, rfl, rfl⟩
      | cons x noise =>
        obtain ⟨hx, hnoise⟩ := List.forall_mem_cons.mp hnoise
        exact .inl ⟨x, _, rfl,
          .inr (.inr ⟨hx, .broken hnoise (Nat.lt_of_succ_lt_succ hn) fault⟩)⟩
    | @exhausted noise hnoise hn =>
      cases noise with
      | nil => cases hn
      | cons x noise =>
        obtain ⟨hx, hnoise⟩ := List.forall_mem_cons.mp hnoise
        exact .inl ⟨x, _, rfl, .inr (.inr ⟨hx, .exhausted hnoise (Nat.succ.inj hn)⟩)⟩
  · rintro (⟨b, rest, rfl, ⟨check, hb, rfl, rfl⟩ | ⟨rfl, rfl, rfl⟩ | ⟨hb, h⟩⟩ | ⟨fault, rfl, rfl⟩)
    · exact @asked (n + 1) [] b check hnil (Nat.succ_pos n) hb
    · exact @cancelled (n + 1) [] hnil (Nat.succ_pos n)
    · exact h.cons hb
    · exact @broken (n + 1) [] hnil (Nat.succ_pos n) fault

end Opening

namespace Dialogue

variable {α β : Type} {r : Except Failure β} {es : List Event}

theorem happens_read_bind {f : UInt8 → Dialogue β} :
    Happens (read >>= f) r es ↔
      (∃ b rest, es = .received b :: rest ∧ Happens (f b) r rest) ∨
        ∃ fault, es = [.broken fault] ∧ r = .error (.fault fault) := Iff.rfl

theorem happens_write_bind {bytes : Bytes} {f : Unit → Dialogue β} :
    Happens (write bytes >>= f) r es ↔
      (∃ rest, es = .sent bytes :: rest ∧ Happens (f ()) r rest) ∨
        ∃ fault, es = [.refused bytes fault] ∧ r = .error (.fault fault) := Iff.rfl

theorem happens_note_bind {level : Log.Level} {text : String} {f : Unit → Dialogue β} :
    Happens (note level text >>= f) r es ↔ Happens (f ()) r es := Iff.rfl

theorem happens_pure {a : β} : Happens (pure a) r es ↔ r = .ok a ∧ es = [] := Iff.rfl

theorem happens_fail {failure : Failure} :
    Happens (fail failure : Dialogue β) r es ↔ r = .error failure ∧ es = [] := Iff.rfl

/-- Waiting, by what the next byte asks for. -/
theorem awaitStart_succ (n : Nat) :
    awaitStart (n + 1) = read >>= fun b =>
      match request? b with
      | some check => pure check
      | none =>
        if b = cancel then fail (.fault .cancelled)
        else note .trace s!"ignoring {showByte b} before start" >>= fun _ => awaitStart n := by
  rw [awaitStart]
  congr 1
  funext b
  unfold request? crcRequest nak
  split
  · rfl
  · split <;> rfl

/-- **Waiting for the receiver to ask.** -/
theorem happens_awaitStart (n : Nat) {r : Except Failure Check} {es : List Event} :
    Happens (awaitStart n) r es ↔ Opening n r es := by
  induction n generalizing es with
  | zero => exact happens_fail.trans Opening.zero_iff.symm
  | succ n ih =>
    rw [awaitStart_succ, happens_read_bind, Opening.succ_iff]
    refine or_congr_left
      (exists_congr fun b => exists_congr fun rest => and_congr_right fun _ => ?_)
    cases hb : request? b with
    | some check =>
      constructor
      · rintro ⟨rfl, rfl⟩
        exact .inl ⟨check, rfl, rfl, rfl⟩
      · rintro (⟨check', hcheck, rfl, rfl⟩ | ⟨rfl, -, -⟩ | ⟨hnoise, -⟩)
        · cases hcheck
          exact ⟨rfl, rfl⟩
        · rw [request?_cancel] at hb
          cases hb
        · rw [(isNoise_iff.mp hnoise).1] at hb
          cases hb
    | none =>
      dsimp only
      by_cases hcancel : b = cancel
      · rw [if_pos hcancel]
        constructor
        · rintro ⟨rfl, rfl⟩
          exact .inr (.inl ⟨hcancel, rfl, rfl⟩)
        · rintro (⟨check, hcheck, -, -⟩ | ⟨-, rfl, rfl⟩ | ⟨hnoise, -⟩)
          · cases hcheck
          · exact ⟨rfl, rfl⟩
          · exact absurd hcancel (isNoise_iff.mp hnoise).2
      · rw [if_neg hcancel, happens_note_bind, ih]
        constructor
        · intro h
          exact .inr (.inr ⟨isNoise_iff.mpr ⟨hb, hcancel⟩, h⟩)
        · rintro (⟨check, hcheck, -, -⟩ | ⟨rfl, -, -⟩ | ⟨-, h⟩)
          · cases hcheck
          · exact absurd rfl hcancel
          · exact h

theorem happens_start {r : Except Failure Check} {es : List Event} :
    Happens start r es ↔ Opening patience r es := by
  rw [start, happens_bind]
  constructor
  · rintro (⟨failure, rfl, h⟩ | ⟨check, es₁, es₂, rfl, h, rfl, rfl⟩)
    · exact (happens_awaitStart _).mp h
    · rw [List.append_nil]
      exact (happens_awaitStart _).mp h
  · intro h
    cases r with
    | error failure => exact .inl ⟨failure, rfl, (happens_awaitStart _).mpr h⟩
    | ok check =>
      exact .inr ⟨check, es, [], (List.append_nil es).symm, (happens_awaitStart _).mpr h, rfl, rfl⟩

end Dialogue

/-! ## How a frame is delivered -/

/-- The reply neither accepts nor calls the transfer off. -/
def isRejection (b : UInt8) : Bool := b ≠ Dialogue.ack && b ≠ cancel

theorem isRejection_iff {b : UInt8} : isRejection b = true ↔ b ≠ Dialogue.ack ∧ b ≠ cancel := by
  rw [isRejection, Bool.and_eq_true, decide_eq_true_iff, decide_eq_true_iff]

/-- Copies of a frame, each with the reply to it. -/
def copies (frame : Bytes) (replies : Bytes) : List Event :=
  replies.flatMap fun b => [.sent frame, .received b]

/-- What happens until a frame is accepted, with some attempts, and the failure if it never is. -/
inductive Exchange (frame : Bytes) (refusal : Failure) (n : Nat) :
    Except Failure Unit → List Event → Prop
  /-- A copy is accepted after others that were not. -/
  | accepted {replies : Bytes} (hreplies : ∀ b ∈ replies, isRejection b = true)
    (hn : replies.length < n) :
    Exchange frame refusal n (.ok ())
      (copies frame replies ++ [.sent frame, .received Dialogue.ack])
  /-- The transfer is called off. -/
  | cancelled {replies : Bytes} (hreplies : ∀ b ∈ replies, isRejection b = true)
    (hn : replies.length < n) :
    Exchange frame refusal n (.error (.fault .cancelled))
      (copies frame replies ++ [.sent frame, .received cancel])
  /-- The port gives no reply. -/
  | broken {replies : Bytes} (hreplies : ∀ b ∈ replies, isRejection b = true)
    (hn : replies.length < n) (fault : Fault) :
    Exchange frame refusal n (.error (.fault fault))
      (copies frame replies ++ [.sent frame, .broken fault])
  /-- The port takes no copy. -/
  | refused {replies : Bytes} (hreplies : ∀ b ∈ replies, isRejection b = true)
    (hn : replies.length < n) (fault : Fault) :
    Exchange frame refusal n (.error (.fault fault))
      (copies frame replies ++ [.refused frame fault])
  /-- No copy is accepted. -/
  | exhausted {replies : Bytes} (hreplies : ∀ b ∈ replies, isRejection b = true)
    (hn : replies.length = n) :
    Exchange frame refusal n (.error refusal) (copies frame replies)

namespace Exchange

variable {frame : Bytes} {refusal : Failure} {n : Nat} {r : Except Failure Unit} {es : List Event}

theorem cons (h : Exchange frame refusal n r es) {b : UInt8} (hb : isRejection b = true) :
    Exchange frame refusal (n + 1) r (.sent frame :: .received b :: es) := by
  cases h with
  | accepted hreplies hn =>
    exact .accepted (List.forall_mem_cons.mpr ⟨hb, hreplies⟩) (Nat.succ_lt_succ hn)
  | cancelled hreplies hn =>
    exact .cancelled (List.forall_mem_cons.mpr ⟨hb, hreplies⟩) (Nat.succ_lt_succ hn)
  | broken hreplies hn fault =>
    exact .broken (List.forall_mem_cons.mpr ⟨hb, hreplies⟩) (Nat.succ_lt_succ hn) fault
  | refused hreplies hn fault =>
    exact .refused (List.forall_mem_cons.mpr ⟨hb, hreplies⟩) (Nat.succ_lt_succ hn) fault
  | exhausted hreplies hn =>
    exact .exhausted (List.forall_mem_cons.mpr ⟨hb, hreplies⟩) (congrArg Nat.succ hn)

theorem zero_iff : Exchange frame refusal 0 r es ↔ r = .error refusal ∧ es = [] := by
  constructor
  · intro h
    cases h with
    | accepted _ hn => exact absurd hn (Nat.not_lt_zero _)
    | cancelled _ hn => exact absurd hn (Nat.not_lt_zero _)
    | broken _ hn _ => exact absurd hn (Nat.not_lt_zero _)
    | refused _ hn _ => exact absurd hn (Nat.not_lt_zero _)
    | exhausted _ hn =>
      rw [List.eq_nil_of_length_eq_zero hn]
      exact ⟨rfl, rfl⟩
  · rintro ⟨rfl, rfl⟩
    exact @exhausted frame refusal 0 [] (fun _ h => absurd h List.not_mem_nil) rfl

/-- The first copy, and the reply to it. -/
theorem succ_iff : Exchange frame refusal (n + 1) r es ↔
    (∃ rest, es = .sent frame :: rest ∧
      ((∃ b rest', rest = .received b :: rest' ∧
        ((b = Dialogue.ack ∧ r = .ok () ∧ rest' = []) ∨
          (b = cancel ∧ r = .error (.fault .cancelled) ∧ rest' = []) ∨
          (isRejection b = true ∧ Exchange frame refusal n r rest'))) ∨
        ∃ fault, rest = [.broken fault] ∧ r = .error (.fault fault))) ∨
      ∃ fault, es = [.refused frame fault] ∧ r = .error (.fault fault) := by
  have hnil : ∀ b ∈ ([] : Bytes), isRejection b = true := fun _ h => absurd h List.not_mem_nil
  constructor
  · intro h
    cases h with
    | @accepted replies hreplies hn =>
      cases replies with
      | nil => exact .inl ⟨_, rfl, .inl ⟨Dialogue.ack, [], rfl, .inl ⟨rfl, rfl, rfl⟩⟩⟩
      | cons b replies =>
        obtain ⟨hb, hreplies⟩ := List.forall_mem_cons.mp hreplies
        exact .inl ⟨_, rfl, .inl ⟨b, _, rfl,
          .inr (.inr ⟨hb, .accepted hreplies (Nat.lt_of_succ_lt_succ hn)⟩)⟩⟩
    | @cancelled replies hreplies hn =>
      cases replies with
      | nil => exact .inl ⟨_, rfl, .inl ⟨cancel, [], rfl, .inr (.inl ⟨rfl, rfl, rfl⟩)⟩⟩
      | cons b replies =>
        obtain ⟨hb, hreplies⟩ := List.forall_mem_cons.mp hreplies
        exact .inl ⟨_, rfl, .inl ⟨b, _, rfl,
          .inr (.inr ⟨hb, .cancelled hreplies (Nat.lt_of_succ_lt_succ hn)⟩)⟩⟩
    | @broken replies hreplies hn fault =>
      cases replies with
      | nil => exact .inl ⟨_, rfl, .inr ⟨fault, rfl, rfl⟩⟩
      | cons b replies =>
        obtain ⟨hb, hreplies⟩ := List.forall_mem_cons.mp hreplies
        exact .inl ⟨_, rfl, .inl ⟨b, _, rfl,
          .inr (.inr ⟨hb, .broken hreplies (Nat.lt_of_succ_lt_succ hn) fault⟩)⟩⟩
    | @refused replies hreplies hn fault =>
      cases replies with
      | nil => exact .inr ⟨fault, rfl, rfl⟩
      | cons b replies =>
        obtain ⟨hb, hreplies⟩ := List.forall_mem_cons.mp hreplies
        exact .inl ⟨_, rfl, .inl ⟨b, _, rfl,
          .inr (.inr ⟨hb, .refused hreplies (Nat.lt_of_succ_lt_succ hn) fault⟩)⟩⟩
    | @exhausted replies hreplies hn =>
      cases replies with
      | nil => cases hn
      | cons b replies =>
        obtain ⟨hb, hreplies⟩ := List.forall_mem_cons.mp hreplies
        exact .inl ⟨_, rfl, .inl ⟨b, _, rfl,
          .inr (.inr ⟨hb, .exhausted hreplies (Nat.succ.inj hn)⟩)⟩⟩
  · rintro (⟨rest, rfl, ⟨b, rest', rfl, ⟨rfl, rfl, rfl⟩ | ⟨rfl, rfl, rfl⟩ | ⟨hb, h⟩⟩ |
      ⟨fault, rfl, rfl⟩⟩ | ⟨fault, rfl, rfl⟩)
    · exact @accepted frame refusal (n + 1) [] hnil (Nat.succ_pos n)
    · exact @cancelled frame refusal (n + 1) [] hnil (Nat.succ_pos n)
    · exact h.cons hb
    · exact @broken frame refusal (n + 1) [] hnil (Nat.succ_pos n) fault
    · exact @refused frame refusal (n + 1) [] hnil (Nat.succ_pos n) fault

end Exchange

namespace Dialogue

/-- One attempt, by what comes after each reply. -/
theorem happens_attempt {frame : Bytes} {refusal : Failure} {n : Nat} {f : UInt8 → Dialogue Unit}
    (hack : f ack = pure ()) (hcancel : f cancel = fail (.fault .cancelled))
    (hagain : ∀ b, isRejection b = true →
      ∀ r es, Happens (f b) r es ↔ Exchange frame refusal n r es)
    {r : Except Failure Unit} {es : List Event} :
    Happens (write frame >>= fun _ => read >>= f) r es ↔ Exchange frame refusal (n + 1) r es := by
  rw [happens_write_bind, Exchange.succ_iff]
  refine or_congr_left (exists_congr fun rest => and_congr_right fun _ => ?_)
  rw [happens_read_bind]
  refine or_congr_left (exists_congr fun b => exists_congr fun rest' => and_congr_right fun _ => ?_)
  by_cases hb : b = ack
  · subst hb
    rw [hack, happens_pure]
    constructor
    · rintro ⟨rfl, rfl⟩
      exact .inl ⟨rfl, rfl, rfl⟩
    · rintro (⟨-, rfl, rfl⟩ | ⟨hb, -, -⟩ | ⟨hb, -⟩)
      · exact ⟨rfl, rfl⟩
      · exact absurd hb (by decide)
      · exact absurd rfl (isRejection_iff.mp hb).1
  · by_cases hb' : b = cancel
    · subst hb'
      rw [hcancel, happens_fail]
      constructor
      · rintro ⟨rfl, rfl⟩
        exact .inr (.inl ⟨rfl, rfl, rfl⟩)
      · rintro (⟨hack, -, -⟩ | ⟨-, rfl, rfl⟩ | ⟨hb', -⟩)
        · exact absurd hack hb
        · exact ⟨rfl, rfl⟩
        · exact absurd rfl (isRejection_iff.mp hb').2
    · have hrejection := isRejection_iff.mpr ⟨hb, hb'⟩
      rw [hagain b hrejection]
      constructor
      · intro h
        exact .inr (.inr ⟨hrejection, h⟩)
      · rintro (⟨hack, -, -⟩ | ⟨hcancel, -, -⟩ | ⟨-, h⟩)
        · exact absurd hack hb
        · exact absurd hcancel hb'
        · exact h

/-- **Sending a block.** -/
theorem happens_sendBlock (number : UInt8) (frame : Bytes) (n : Nat) {r : Except Failure Unit}
    {es : List Event} :
    Happens (sendBlock number frame n) r es ↔ Exchange frame (.blockRefused number) n r es := by
  induction n generalizing r es with
  | zero => exact happens_fail.trans Exchange.zero_iff.symm
  | succ n ih =>
    rw [sendBlock, happens_note_bind]
    refine happens_attempt (if_pos rfl) rfl fun b hb r es => ?_
    obtain ⟨hack, hcancel⟩ := isRejection_iff.mp hb
    rw [if_neg hack, if_neg hcancel]
    split
    · exact ih
    · exact ih

/-- **Sending the end of a file.** -/
theorem happens_sendEnd (n : Nat) {r : Except Failure Unit} {es : List Event} :
    Happens (sendEnd n) r es ↔ Exchange [endOfFile] .endRefused n r es := by
  induction n generalizing r es with
  | zero => exact happens_fail.trans Exchange.zero_iff.symm
  | succ n ih =>
    rw [sendEnd]
    refine happens_attempt (if_pos rfl) rfl fun b hb r es => ?_
    obtain ⟨hack, hcancel⟩ := isRejection_iff.mp hb
    rw [if_neg hack, if_neg hcancel]
    exact ih

end Dialogue

/-! ## How several frames are delivered -/

/-- What happens until every frame is accepted or one of them fails, with the failure of each that
is never accepted. -/
inductive Exchanges : List (Bytes × Failure) → Except Failure Unit → List Event → Prop
  /-- There is none left. -/
  | done : Exchanges [] (.ok ()) []
  /-- The first is accepted. -/
  | next {frame : Bytes} {refusal : Failure} {rest : List (Bytes × Failure)}
    {r : Except Failure Unit} {es es' : List Event}
    (h : Exchange frame refusal 10 (.ok ()) es) (hrest : Exchanges rest r es') :
    Exchanges ((frame, refusal) :: rest) r (es ++ es')
  /-- The first fails. -/
  | failed {frame : Bytes} {refusal : Failure} {rest : List (Bytes × Failure)} {failure : Failure}
    {es : List Event} (h : Exchange frame refusal 10 (.error failure) es) :
    Exchanges ((frame, refusal) :: rest) (.error failure) es

namespace Dialogue

theorem exchanges_cons_iff {frame : Bytes} {refusal : Failure} {rest : List (Bytes × Failure)}
    {r : Except Failure Unit} {es : List Event} :
    Exchanges ((frame, refusal) :: rest) r es ↔
      (∃ failure, r = .error failure ∧ Exchange frame refusal 10 (.error failure) es) ∨
        ∃ es₁ es₂, es = es₁ ++ es₂ ∧ Exchange frame refusal 10 (.ok ()) es₁ ∧
          Exchanges rest r es₂ := by
  constructor
  · intro h
    cases h with
    | next h hrest => exact .inr ⟨_, _, rfl, h, hrest⟩
    | failed h => exact .inl ⟨_, rfl, h⟩
  · rintro (⟨failure, rfl, h⟩ | ⟨es₁, es₂, rfl, h, hrest⟩)
    · exact .failed h
    · exact .next h hrest

theorem happens_sendBlocks (check : Check) (size : BlockSize) (number : UInt8)
    (pieces : List Bytes) {r : Except Failure Unit} {es : List Event} :
    Happens (sendBlocks check size number pieces >>= fun _ => sendEnd attempts) r es ↔
      Exchanges (framesFrom check size number pieces) r es := by
  induction pieces generalizing number r es with
  | nil =>
    show Happens (sendEnd attempts) r es ↔ _
    rw [happens_sendEnd, framesFrom, exchanges_cons_iff]
    constructor
    · intro h
      cases r with
      | error failure => exact .inl ⟨failure, rfl, h⟩
      | ok _ => exact .inr ⟨es, [], (List.append_nil es).symm, h, .done⟩
    · rintro (⟨failure, rfl, h⟩ | ⟨es₁, es₂, rfl, h, hrest⟩)
      · exact h
      · cases hrest
        rw [List.append_nil]
        exact h
  | cons piece pieces ih =>
    rw [sendBlocks, Plan.bind_bind, happens_bind, framesFrom, exchanges_cons_iff]
    constructor
    · rintro (⟨failure, rfl, h⟩ | ⟨_, es₁, es₂, rfl, h, hrest⟩)
      · exact .inl ⟨failure, rfl, (happens_sendBlock _ _ _).mp h⟩
      · exact .inr ⟨es₁, es₂, rfl, (happens_sendBlock _ _ _).mp h, (ih _).mp hrest⟩
    · rintro (⟨failure, rfl, h⟩ | ⟨es₁, es₂, rfl, h, hrest⟩)
      · exact .inl ⟨failure, rfl, (happens_sendBlock _ _ _).mpr h⟩
      · exact .inr ⟨(), es₁, es₂, rfl, (happens_sendBlock _ _ _).mpr h, (ih _).mpr hrest⟩

end Dialogue

/-! ## A whole transfer -/

/-- What happens in a transfer of frames that depend on the check asked for. -/
inductive Conversation (frames : Check → List (Bytes × Failure)) :
    Except Failure Unit → List Event → Prop
  /-- The receiver does not ask. -/
  | unasked {failure : Failure} {es : List Event} (h : Opening 1024 (.error failure) es) :
    Conversation frames (.error failure) es
  /-- It asks, and the frames are delivered. -/
  | asked {check : Check} {r : Except Failure Unit} {es es' : List Event}
    (h : Opening 1024 (.ok check) es) (hframes : Exchanges (frames check) r es') :
    Conversation frames r (es ++ es')

namespace Dialogue

theorem happens_sendBlockwise (size : BlockSize) (data : Bytes) {r : Except Failure Unit}
    {es : List Event} :
    Happens (sendBlockwise size data) r es ↔ Conversation (framesOf size data) r es := by
  rw [sendBlockwise, happens_bind]
  constructor
  · rintro (⟨failure, rfl, h⟩ | ⟨check, es₁, es₂, rfl, h, hframes⟩)
    · exact .unasked (happens_start.mp h)
    · exact .asked (happens_start.mp h) ((happens_sendBlocks _ _ _ _).mp hframes)
  · intro h
    cases h with
    | unasked h => exact .inl ⟨_, rfl, happens_start.mpr h⟩
    | asked h hframes =>
      exact .inr ⟨_, _, _, rfl, happens_start.mpr h, (happens_sendBlocks _ _ _ _).mpr hframes⟩

end Dialogue

/-! ## What is sent -/

/-- The pieces that were sent, first to last. -/
def written (es : List Event) : List Bytes :=
  es.filterMap fun
    | .sent bytes => some bytes
    | _ => none

theorem written_append (es es' : List Event) :
    written (es ++ es') = written es ++ written es' := List.filterMap_append

theorem written_copies (frame replies : Bytes) :
    written (copies frame replies) = List.replicate replies.length frame := by
  induction replies with
  | nil => rfl
  | cons b replies ih =>
    show frame :: written (copies frame replies) = _
    rw [ih]
    rfl

theorem Opening.written_eq {n : Nat} {r : Except Failure Check} {es : List Event}
    (h : Opening n r es) : written es = [] := by
  have hnoise : ∀ noise : Bytes, written (noise.map .received) = [] := by
    intro noise
    induction noise with
    | nil => rfl
    | cons b noise ih => exact ih
  cases h with
  | asked _ _ _ => rw [written_append, hnoise]; rfl
  | cancelled _ _ => rw [written_append, hnoise]; rfl
  | broken _ _ _ => rw [written_append, hnoise]; rfl
  | exhausted _ _ => exact hnoise _

/-- Nothing but copies of the frame, and not too many. -/
theorem Exchange.written_eq {frame : Bytes} {refusal : Failure} {n : Nat}
    {r : Except Failure Unit} {es : List Event} (h : Exchange frame refusal n r es) :
    ∃ a ≤ n, written es = List.replicate a frame := by
  have hlast : ∀ replies : Bytes, ∀ last : List Event, written last = [frame] →
      written (copies frame replies ++ last) = List.replicate (replies.length + 1) frame := by
    intro replies last hlast
    rw [written_append, written_copies, hlast, List.replicate_succ']
  cases h with
  | accepted _ hn => exact ⟨_, hn, hlast _ _ rfl⟩
  | cancelled _ hn => exact ⟨_, hn, hlast _ _ rfl⟩
  | broken _ hn fault => exact ⟨_, hn, hlast _ _ rfl⟩
  | refused _ hn fault =>
    refine ⟨_, hn.le, ?_⟩
    rw [written_append, written_copies]
    exact List.append_nil _
  | exhausted _ hn => exact ⟨_, hn.le, written_copies _ _⟩

/-- The check that the receiver has asked for: the first of the bytes received that asks for one. -/
def asked? (es : List Event) : Option Check :=
  es.findSome? fun
    | .received b => request? b
    | _ => none

theorem asked?_noise {noise : Bytes} (hnoise : ∀ x ∈ noise, isNoise x = true) :
    asked? (noise.map .received) = none := by
  rw [asked?, List.findSome?_eq_none_iff]
  intro e he
  obtain ⟨b, hb, rfl⟩ := List.mem_map.mp he
  exact (isNoise_iff.mp (hnoise b hb)).1

theorem asked?_append (es es' : List Event) : asked? (es ++ es') = (asked? es).or (asked? es') :=
  List.findSome?_append

theorem Opening.asked?_ok {n : Nat} {check : Check} {es : List Event}
    (h : Opening n (.ok check) es) : asked? es = some check := by
  cases h with
  | @asked noise b _ hnoise _ hb =>
    rw [asked?_append, asked?_noise hnoise, Option.none_or, asked?, List.findSome?_cons]
    dsimp only
    rw [hb]

theorem Exchanges.written_eq {frames : List (Bytes × Failure)} {r : Except Failure Unit}
    {es : List Event} (h : Exchanges frames r es) :
    ∃ counts : List Nat, counts.length ≤ frames.length ∧ (∀ a ∈ counts, a ≤ 10) ∧
      written es = (List.zipWith List.replicate counts (frames.map Prod.fst)).flatten := by
  induction h with
  | done => exact ⟨[], Nat.le_refl _, fun _ h => absurd h List.not_mem_nil, rfl⟩
  | next h _ ih =>
    obtain ⟨a, ha, hwritten⟩ := h.written_eq
    obtain ⟨counts, hlength, hcounts, hrest⟩ := ih
    refine ⟨a :: counts, Nat.succ_le_succ hlength, List.forall_mem_cons.mpr ⟨ha, hcounts⟩, ?_⟩
    rw [written_append, hwritten, hrest]
    rfl
  | failed h =>
    obtain ⟨a, ha, hwritten⟩ := h.written_eq
    refine ⟨[a], Nat.succ_le_succ (Nat.zero_le _), List.forall_mem_singleton.mpr ha, ?_⟩
    rw [hwritten]
    exact (List.append_nil _).symm

/-- What is sent in a transfer: copies of the first frames, in order. -/
theorem Conversation.written_eq {frames : Check → List (Bytes × Failure)}
    {r : Except Failure Unit} {es : List Event} (h : Conversation frames r es) :
    ∃ counts : List Nat, counts.length ≤ ((asked? es).elim [] frames).length ∧
      (∀ a ∈ counts, a ≤ 10) ∧
      written es = (List.zipWith List.replicate counts
        (((asked? es).elim [] frames).map Prod.fst)).flatten := by
  cases h with
  | unasked h =>
    refine ⟨[], Nat.zero_le _, fun _ h => absurd h List.not_mem_nil, ?_⟩
    rw [h.written_eq]
    rfl
  | asked h hframes =>
    rw [asked?_append, h.asked?_ok, Option.some_or, written_append, h.written_eq]
    exact hframes.written_eq

/-! ## The protocols -/

/-- The protocol of one block size. -/
def BlockSize.protocol : BlockSize → Protocol
  | .short => .xmodem
  | .long => .xmodem1k

namespace Dialogue

theorem happens_sendFile (size : BlockSize) (name : String) (data : Bytes)
    {r : Except Failure Unit} {es : List Event} :
    Happens (sendFile size.protocol name data) r es ↔ Conversation (framesOf size data) r es := by
  rw [← happens_sendBlockwise]
  cases size <;> rfl

/-- **The block protocols stop and wait.**  For every file and whatever the port answers: the
transfer over a port is the one over its recorder, and what is recorded is a conversation about the
frames of the file, which has exactly one result, that of the transfer.  What was sent is copies of
the first frames, in order, none of them more than ten times. -/
theorem sendFile_stops_and_waits {π : Type} [Port π] (size : BlockSize) (name : String)
    (data : Bytes) (p : π) :
    ∃ frames : Check → List (Bytes × Failure), (∀ check, IsFile size check data (frames check)) ∧
      let transfer := Port.run (sendFile size.protocol name data) (⟨p, []⟩ : Recorder π)
      let events := transfer.2.events
      Port.run (sendFile size.protocol name data) p = (transfer.1, transfer.2.port) ∧
        (∀ r, transfer.1 = r ↔ Conversation frames r events) ∧
        ∃ counts : List Nat, counts.length ≤ ((asked? events).elim [] frames).length ∧
          (∀ a ∈ counts, a ≤ 10) ∧
          written events = (List.zipWith List.replicate counts
            (((asked? events).elim [] frames).map Prod.fst)).flatten := by
  refine ⟨framesOf size data, isFile_framesOf size data, ?_⟩
  intro transfer events
  have hhappens := Recorder.happens_new (sendFile size.protocol name data) p
  have hconversation := (happens_sendFile size name data).mp hhappens
  refine ⟨Recorder.run_port _ (⟨p, []⟩ : Recorder π), fun r => ?_, hconversation.written_eq⟩
  constructor
  · rintro rfl
    exact hconversation
  · intro h
    exact hhappens.unique ((happens_sendFile size name data).mpr h)

end Dialogue

end BoardConsole.Transfer
