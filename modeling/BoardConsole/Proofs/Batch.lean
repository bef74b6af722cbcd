import BoardConsole.Link.Script
import BoardConsole.Proofs.Receiver
import BoardConsole.Proofs.StopAndWait
import Mathlib.Data.List.Destutter

/-!
# Batches arrive

Whatever the receiver answers, a batch that the sender believes delivered is one that a receiver can
put together again from the frames it has heard, with the check it had asked for last when each of
them came.  A frame may be heard more than once, since an acknowledgement can be lost on the way;
its repeats come right after it.

- `heard`: the frames of a conversation that a receiver takes.
- `Delivery`: what happens when a batch is delivered.
- `Repeats`, `Delivery.repeats`: **what is heard are the frames of the batch**, in order, each of
  them once or more.
- `Dialogue.sendFile_arrives`: **they give name, size and contents back**.
-/

namespace BoardConsole.Transfer

open Dialogue (header headerSize)

/-! ## Repeats -/

/-- The second list is the first one with each of its elements once or more. -/
inductive Repeats {α : Type} : List α → List α → Prop
  /-- Nothing. -/
  | nil : Repeats [] []
  /-- An element for the last time. -/
  | once (x : α) {xs ys : List α} (h : Repeats xs ys) : Repeats (x :: xs) (x :: ys)
  /-- An element that comes again. -/
  | again {x : α} {xs ys : List α} (h : Repeats (x :: xs) ys) : Repeats (x :: xs) (x :: ys)

section

variable {α : Type} [DecidableEq α] {xs ys : List α}

/-- Repeats are dropped after an element: after another one than the first, and after the first. -/
theorem Repeats.destutter' (h : Repeats xs ys) :
    (∀ a, (a :: xs).IsChain (· ≠ ·) → ys.destutter' (· ≠ ·) a = a :: xs) ∧
      ∀ a ∈ xs.head?, xs.IsChain (· ≠ ·) → ys.destutter' (· ≠ ·) a = xs := by
  induction h with
  | nil => exact ⟨fun a _ => rfl, fun a ha => by cases ha⟩
  | once x h ih =>
    constructor
    · intro a hchain
      obtain ⟨hne, hchain⟩ := List.isChain_cons_cons.mp hchain
      rw [List.destutter'_cons_pos _ hne, ih.1 x hchain]
    · rintro a ⟨⟩ hchain
      rw [List.destutter'_cons_neg _ (not_not.mpr rfl), ih.1 _ hchain]
  | again h ih =>
    constructor
    · intro a hchain
      obtain ⟨hne, hchain⟩ := List.isChain_cons_cons.mp hchain
      rw [List.destutter'_cons_pos _ hne, ih.2 _ rfl hchain]
    · rintro a ⟨⟩ hchain
      rw [List.destutter'_cons_neg _ (not_not.mpr rfl), ih.2 _ rfl hchain]

/-- **Dropping repeats gives the list back**, if no element stands next to itself in it. -/
theorem Repeats.destutter_eq (h : Repeats xs ys) (hchain : xs.IsChain (· ≠ ·)) :
    ys.destutter (· ≠ ·) = xs := by
  cases h with
  | nil => rfl
  | once x h => exact h.destutter'.1 x hchain
  | again h => exact h.destutter'.2 _ rfl hchain

end

/-! ## What is heard -/

/-- The frames that a receiver takes, each with the check in force.  A byte that is no reply to a
frame may ask for another check.  A frame is taken if it is acknowledged; of the others the receiver
takes any, by the number of things still to happen. -/
def heard (keeps : Nat → Bool) : Check → List Event → List (Check × Bytes)
  | _, [] => []
  | check, .sent frame :: .received b :: rest =>
    if b = 0x06 || keeps rest.length then (check, frame) :: heard keeps check rest
    else heard keeps check rest
  | check, .received b :: rest => heard keeps ((request? b).getD check) rest
  | check, _ :: rest => heard keeps check rest

variable {keeps : Nat → Bool} {check : Check} {frame : Bytes} {rest : List Event}
  {later : List (Check × Bytes)}

theorem heard_received (b : UInt8) :
    heard keeps check (.received b :: rest) = heard keeps ((request? b).getD check) rest := rfl

theorem heard_noise {noise : Bytes} (hnoise : ∀ x ∈ noise, isNoise x = true) :
    heard keeps check (noise.map .received ++ rest) = heard keeps check rest := by
  induction noise with
  | nil => rfl
  | cons b noise ih =>
    obtain ⟨hb, hnoise⟩ := List.forall_mem_cons.mp hnoise
    rw [List.map_cons, List.cons_append, heard_received, (isNoise_iff.mp hb).1]
    exact ih hnoise

/-- After the receiver has asked, its check is in force. -/
theorem Opening.heard_append {n : Nat} {asked : Check} {es : List Event}
    (h : Opening n (.ok asked) es) : heard keeps check (es ++ rest) = heard keeps asked rest := by
  cases h with
  | asked hnoise _ hb =>
    rw [List.append_assoc, heard_noise hnoise]
    show heard keeps ((request? _).getD check) rest = _
    rw [hb]
    rfl

/-- A frame with any reply is heard or not. -/
theorem Repeats.heard_copy (h : Repeats ((check, frame) :: later) (heard keeps check rest))
    (b : UInt8) :
    Repeats ((check, frame) :: later) (heard keeps check (.sent frame :: .received b :: rest)) := by
  show Repeats _ (if _ then _ else _)
  split
  · exact .again h
  · exact h

theorem Repeats.heard_copies (h : Repeats ((check, frame) :: later) (heard keeps check rest))
    (replies : Bytes) :
    Repeats ((check, frame) :: later) (heard keeps check (copies frame replies ++ rest)) := by
  induction replies with
  | nil => exact h
  | cons b replies ih => exact ih.heard_copy b

/-- A frame that is accepted is heard at least once. -/
theorem Exchange.repeats {refusal : Failure} {n : Nat} {es : List Event}
    (h : Exchange frame refusal n (.ok ()) es) (hlater : Repeats later (heard keeps check rest)) :
    Repeats ((check, frame) :: later) (heard keeps check (es ++ rest)) := by
  cases h with
  | @accepted replies hreplies hn =>
    have hlast : Repeats ((check, frame) :: later)
        (heard keeps check (.sent frame :: .received Dialogue.ack :: rest)) := .once _ hlater
    rw [List.append_assoc]
    exact hlast.heard_copies replies

theorem Exchanges.repeats {frames : List (Bytes × Failure)} {es : List Event}
    (h : Exchanges frames (.ok ()) es) (hlater : Repeats later (heard keeps check rest)) :
    Repeats (frames.map (fun f => (check, f.1)) ++ later) (heard keeps check (es ++ rest)) := by
  generalize hr : (.ok () : Except Failure Unit) = r at h
  induction h with
  | done => exact hlater
  | next h hrest ih =>
    rw [List.append_assoc]
    exact h.repeats (ih hr)
  | failed h => cases hr

/-! ## A batch -/

/-- The block that announces a file. -/
def headerBlock (check : Check) (name : String) (size : Nat) : Bytes :=
  block check (headerSize (header name size)) 0 0 (header name size)

/-- The block that announces no file. -/
def emptyBlock (check : Check) : Bytes := block check .short 0 0 []

/-- What happens when a batch of one file is delivered: the receiver asks three times, for the
block that announces the file, for its contents, and for the next file. -/
inductive Delivery (name : String) (data : Bytes) : List Event → Prop
  /-- The six parts. -/
  | mk {c₁ c₂ c₃ : Check} {es₁ es₂ es₃ es₄ es₅ es₆ : List Event}
    (hfirst : Opening 1024 (.ok c₁) es₁)
    (hheader : Exchange (headerBlock c₁ name data.length) (.blockRefused 0) 10 (.ok ()) es₂)
    (hsecond : Opening 1024 (.ok c₂) es₃)
    (hcontents : Exchanges (framesOf .long data c₂) (.ok ()) es₄)
    (hthird : Opening 1024 (.ok c₃) es₅)
    (hempty : Exchange (emptyBlock c₃) (.blockRefused 0) 10 (.ok ()) es₆) :
    Delivery name data (es₁ ++ (es₂ ++ (es₃ ++ (es₄ ++ (es₅ ++ es₆)))))

namespace Dialogue

variable {name : String} {data : Bytes}

theorem happens_bind_ok {α β : Type} {d : Dialogue α} {f : α → Dialogue β} {b : β}
    {es : List Event} (h : Happens (d >>= f) (.ok b) es) :
    ∃ a es₁ es₂, es = es₁ ++ es₂ ∧ Happens d (.ok a) es₁ ∧ Happens (f a) (.ok b) es₂ := by
  rcases happens_bind.mp h with ⟨failure, hr, -⟩ | h
  · cases hr
  · exact h

theorem delivery_of_happens {es : List Event}
    (h : Happens (sendFile .ymodem name data) (.ok ()) es) : Delivery name data es := by
  have h : Happens (sendBatch name data) (.ok ()) es := h
  obtain ⟨c₁, es₁, _, rfl, h₁, h⟩ := happens_bind_ok h
  obtain ⟨⟨⟩, es₂, _, rfl, h₂, h⟩ := happens_bind_ok h
  obtain ⟨c₂, es₃, _, rfl, h₃, h⟩ := happens_bind_ok h
  rw [← Plan.bind_bind] at h
  obtain ⟨⟨⟩, es₄, _, rfl, h₄, h⟩ := happens_bind_ok h
  obtain ⟨c₃, es₅, es₆, rfl, h₅, h₆⟩ := happens_bind_ok h
  exact .mk (happens_start.mp h₁) ((happens_sendBlock _ _ _).mp h₂) ((happens_awaitStart _).mp h₃)
    ((happens_sendBlocks _ _ _ _).mp h₄) ((happens_awaitStart _).mp h₅)
    ((happens_sendBlock _ _ _).mp h₆)

end Dialogue

/-- The frames of a batch, each with the check it is made for. -/
def batch (name : String) (data : Bytes) (c₁ c₂ c₃ : Check) : List (Check × Bytes) :=
  (c₁, headerBlock c₁ name data.length) ::
    ((framesOf .long data c₂).map (fun f => (c₂, f.1)) ++ [(c₃, emptyBlock c₃)])

/-- Frames that follow each other differ: they have different numbers, and the end has none. -/
theorem isChain_framesFrom (c : Check) (size : BlockSize) (number : UInt8) (pieces : List Bytes)
    {first last : Check × Bytes} (hfirst : first.2[1]? = some number) (hlast : last.2 ≠ [0x04]) :
    (first :: ((framesFrom c size (number + 1) pieces).map (fun f => (c, f.1)) ++ [last])).IsChain
      (· ≠ ·) := by
  induction pieces generalizing number first with
  | nil =>
    refine .cons_cons ?_ (.cons_cons ?_ (.singleton _))
    · rintro rfl
      cases hfirst
    · rintro rfl
      exact hlast rfl
  | cons piece pieces ih =>
    refine .cons_cons ?_ (ih (number + 1) rfl)
    rintro rfl
    have hsame : number + 1 = number := Option.some.inj hfirst
    rw [UInt8.add_eq_left] at hsame
    exact absurd hsame (by decide)

theorem isChain_batch (name : String) (data : Bytes) (c₁ c₂ c₃ : Check) :
    (batch name data c₁ c₂ c₃).IsChain (· ≠ ·) := by
  refine isChain_framesFrom c₂ .long 0 _ rfl fun hempty => ?_
  cases (List.cons.inj hempty).2

theorem Delivery.repeats {name : String} {data : Bytes} {es : List Event}
    (h : Delivery name data es) (keeps : Nat → Bool) (check : Check) :
    ∃ c₁ c₂ c₃, Repeats (batch name data c₁ c₂ c₃) (heard keeps check es) := by
  cases h with
  | @mk c₁ c₂ c₃ _ _ _ _ _ es₆ hfirst hheader hsecond hcontents hthird hempty =>
    refine ⟨c₁, c₂, c₃, ?_⟩
    rw [← List.append_nil es₆, hfirst.heard_append]
    refine hheader.repeats ?_
    rw [hsecond.heard_append]
    refine hcontents.repeats ?_
    rw [hthird.heard_append]
    exact hempty.repeats .nil

/-- **A receiver gets the file**, whatever it asks for and whichever frames it hears twice. -/
theorem Delivery.receive_eq {name : String} {data : Bytes} {es : List Event}
    (h : Delivery name data es) (hname : '\x00' ∉ name.toList)
    (hfits : (header name data.length).length ≤ 1024) (keeps : Nat → Bool) (check : Check) :
    receive ((heard keeps check es).destutter (· ≠ ·)) = some ⟨name, data.length, data⟩ := by
  obtain ⟨c₁, c₂, c₃, hrepeats⟩ := h.repeats keeps check
  rw [hrepeats.destutter_eq (isChain_batch name data c₁ c₂ c₃)]
  exact receive_batch hname hfits c₁ c₂ c₃

/-! ## How a batch ends -/

/-- The last things that happen: the end of the file is accepted, the receiver asks once more, and
a block of zeros is accepted. -/
def Concludes (es : List Event) : Prop :=
  ∃ before asked check zeros again,
    es = before ++ [.sent [0x04], .received 0x06] ++ asked ++
      (copies zeros again ++ [.sent zeros, .received 0x06]) ∧
    Opening 1024 (.ok check) asked ∧ (∀ b ∈ again, isRejection b = true) ∧
    openBlock 0 check zeros = some (List.replicate 128 0)

theorem Exchange.accepted_last {frame : Bytes} {refusal : Failure} {n : Nat} {es : List Event}
    (h : Exchange frame refusal n (.ok ()) es) :
    ∃ again, es = copies frame again ++ [.sent frame, .received 0x06] ∧
      ∀ b ∈ again, isRejection b = true := by
  cases h with
  | accepted hreplies hn => exact ⟨_, rfl, hreplies⟩

/-- The last of several frames is accepted last. -/
theorem Exchanges.accepted_last {frames : List (Bytes × Failure)} {es : List Event}
    (h : Exchanges frames (.ok ()) es) {frame : Bytes} {refusal : Failure}
    (hlast : frames.getLast? = some (frame, refusal)) :
    ∃ before, es = before ++ [.sent frame, .received 0x06] := by
  generalize hr : (.ok () : Except Failure Unit) = r at h
  induction h with
  | done => cases hlast
  | @next first refusal' later _ es es' h hrest ih =>
    subst hr
    cases later with
    | nil =>
      cases hlast
      cases hrest
      obtain ⟨again, hes, -⟩ := h.accepted_last
      rw [List.append_nil]
      exact ⟨_, hes⟩
    | cons second later =>
      rw [List.getLast?_cons_cons] at hlast
      obtain ⟨before, hes'⟩ := ih hlast rfl
      exact ⟨es ++ before, by rw [hes', List.append_assoc]⟩
  | failed h => cases hr

theorem Delivery.concludes {name : String} {data : Bytes} {es : List Event}
    (h : Delivery name data es) : Concludes es := by
  cases h with
  | @mk c₁ c₂ c₃ es₁ es₂ es₃ es₄ es₅ es₆ hfirst hheader hsecond hcontents hthird hempty =>
    obtain ⟨before, hend⟩ := hcontents.accepted_last (getLast?_framesFrom _ _ _ _)
    obtain ⟨again, hzeros, hagain⟩ := hempty.accepted_last
    refine ⟨es₁ ++ (es₂ ++ (es₃ ++ before)), es₅, c₃, emptyBlock c₃, again, ?_, hthird, hagain,
      openBlock_empty c₃⟩
    rw [hend, hzeros]
    simp only [List.append_assoc]

namespace Dialogue

/-- **A batch arrives.**  For every name without a zero and all contents whose header fits into a
block, and whatever the port answers: if the transfer succeeds then a receiver puts the file
together from the frames of the conversation that it has heard, whichever of those it has not
acknowledged are among them and whatever check it starts with, and the conversation ends as it
should. -/
theorem sendFile_arrives {π : Type} [Port π] {name : String} {data : Bytes} {p : π}
    (hname : '\x00' ∉ name.toList)
    (hfits : name.utf8ByteSize + (toString data.length).length + 2 ≤ 1024)
    (hok : (Port.run (sendFile .ymodem name data) p).1 = .ok ()) :
    let transfer := Port.run (sendFile .ymodem name data) (⟨p, []⟩ : Recorder π)
    let events := transfer.2.events
    Port.run (sendFile .ymodem name data) p = (transfer.1, transfer.2.port) ∧
      (∀ keeps check, receive ((heard keeps check events).destutter (· ≠ ·))
        = some ⟨name, data.length, data⟩) ∧
      Concludes events := by
  intro transfer events
  have hport := Recorder.run_port (sendFile .ymodem name data) (⟨p, []⟩ : Recorder π)
  have hhappens := Recorder.happens_new (sendFile .ymodem name data) p
  have hresult : transfer.1 = .ok () := (congrArg Prod.fst hport).symm.trans hok
  have hdelivery : Delivery name data events := delivery_of_happens (hresult ▸ hhappens)
  rw [← length_header] at hfits
  exact ⟨hport, hdelivery.receive_eq hname hfits, hdelivery.concludes⟩

/-- A receiver that asks for codes after some noise, then for sums, then for codes again, and has
the header and the end of the file sent twice. -/
def forgetful : LinkPort Script where
  link := { reads := [.ok [0x3E, 0x43, 0x15, 0x06, 0x15, 0x06, 0x15, 0x06, 0x43, 0x06]] }

theorem sendFile_forgetful :
    (Port.run (sendFile .ymodem "a.s19" [1, 2, 3]) forgetful).1 = .ok () := by
  have hchunks : chunks 1024 [1, 2, 3] = [[1, 2, 3]] := by
    rw [chunks_of_ne_nil (by decide) (by decide)]
    exact congrArg _ (chunks_nil 1024)
  simp only [sendFile, sendBatch, sendContents, BlockSize.count, hchunks]
  decide +kernel

theorem sendFile_arrives_forgetful :
    let events := (Port.run (sendFile .ymodem "a.s19" [1, 2, 3])
      (⟨forgetful, []⟩ : Recorder (LinkPort Script))).2.events
    (∀ keeps check, receive ((heard keeps check events).destutter (· ≠ ·))
      = some ⟨"a.s19", 3, [1, 2, 3]⟩) ∧ Concludes events :=
  (sendFile_arrives (by decide) (by decide) sendFile_forgetful).2

end Dialogue

end BoardConsole.Transfer
