import BoardConsole.Proofs.Readiness
import BoardConsole.Proofs.Steadfast

/-!
# Opening a link with stale bytes on it

A link that has just been opened may hold bytes that an earlier session never read.  Opening throws
away as many of them as one read takes.  What is left over is taken for the replies of later
commands, so it can be seen in the transcript, and in where the pointer is when a command that
compares has stopped at another byte.  It can never be seen in memory, because a command that stores
something asks for the same bytes to be sent whatever its replies are, and points at an address of
its own before it stores anything.

- `Monitor.core`: a board without the replies that wait on it.
- `Procedure.run_core`: **a board is what it was sent**, whatever replies have been taken from it.
- `Procedure.Aims`: a procedure that selects a bank before it stores anything.
- `Command.determined`: what a command makes of the memory depends on the memory alone.
- `Session.opened_dispatchAll`: **what stale bytes can and cannot change**.
-/

namespace BoardConsole

/-! ## Boards apart from their replies -/

namespace Monitor

/-- The board without the replies that wait and without its record of controls. -/
def core (m : Monitor) : Monitor := { m with replies := [], controls := {} }

theorem core_store (m : Monitor) (address : Nat) (v : UInt8) :
    (m.store address v).core = m.core.store address v := by
  cases h : m.chip.part.offset? address with
  | some o =>
    rw [store_of_chip h, store_of_chip (m := m.core) h]
    rfl
  | none =>
    cases hr : register? address with
    | some r =>
      rw [store_of_register h hr, store_of_register (m := m.core) h hr]
      rfl
    | none =>
      rw [store_of_ram h hr, store_of_ram (m := m.core) h hr]
      rfl

/-- No mark looks at the replies that wait or at the record of controls. -/
theorem core_mark (m : Monitor) (number : Nat) (b : UInt8) :
    (m.mark number b).core = (m.core.mark number b).core := by
  unfold mark
  split
  -- only a store writes anywhere, and it writes the same on both boards
  case h_3 =>
    show (m.store m.pointer (UInt8.ofNat number)).core.step = _
    rw [core_store]
    show _ = (m.core.store m.pointer (UInt8.ofNat number)).core.step
    rw [core_store]
    rfl
  all_goals rfl

theorem core_receive (m : Monitor) (b : UInt8) : (m.receive b).core = (m.core.receive b).core := by
  unfold receive
  cases Hex.digit? (Bytes.toChar b) with
  | some d => rfl
  | none => exact core_mark m.clearDigits m.digits b

theorem core_receiveAll (m : Monitor) (bs : Bytes) :
    (m.receiveAll bs).core = (m.core.receiveAll bs).core := by
  induction bs generalizing m with
  | nil => rfl
  | cons b bs ih =>
    show ((m.receive b).receiveAll bs).core = ((m.core.receive b).receiveAll bs).core
    rw [ih (m.receive b), ih (m.core.receive b), core_receive]

theorem core_receiveAll_congr {a b : Monitor} (h : a.core = b.core) (bs : Bytes) :
    (a.receiveAll bs).core = (b.receiveAll bs).core := by
  rw [core_receiveAll a, core_receiveAll b, h]

theorem SameMemory.of_core {a b : Monitor} (h : a.core = b.core) : a.SameMemory b := by
  have hram : a.core.ram = b.core.ram := by rw [h]
  have hremap : a.core.remap = b.core.remap := by rw [h]
  have hchip : a.core.chip = b.core.chip := by rw [h]
  have hadvance : a.core.advance = b.core.advance := by rw [h]
  exact ⟨hram, hremap, hchip, hadvance⟩

/-- Pointed at one address, boards with the same memory differ in their replies only. -/
theorem SameMemory.core_pointAt {a b : Monitor} (h : a.SameMemory b) (address : Nat) :
    (a.pointAt address).core = (b.pointAt address).core := by
  simp only [core, pointAt, h.ram, h.remap, h.chip, h.advance]

end Monitor

namespace Debugger

/-! ## A board is what it was sent -/

/-- Every intent gets some answer. -/
theorem Intent.nonempty_answer (intent : Intent) : Nonempty intent.Answer := by
  cases intent with
  | reply => exact ⟨(0 : UInt8)⟩
  | drain => exact ⟨(0 : Nat)⟩
  | _ => exact ⟨()⟩

/-- The bytes that an intent sends. -/
def Intent.wire : Intent → Bytes
  | .send text => Utf8.encode text
  | _ => []

theorem Intent.run_sent (intent : Intent) (m : Monitor) : (intent.run m).sent = intent.wire := by
  cases intent with
  | reply =>
    rw [Intent.run]
    rcases Session.readReply m with ⟨fault | b, m'⟩
    · rfl
    · rfl
  | _ => rfl

theorem Intent.run_core (intent : Intent) (m : Monitor) :
    (intent.run m).board.core = (m.receiveAll (intent.run m).sent).core := by
  cases intent with
  | reply =>
    obtain ⟨rest, hrest⟩ := Session.readReply_board m
    rw [Intent.run]
    generalize Session.readReply m = out at hrest ⊢
    obtain ⟨result, m'⟩ := out
    subst hrest
    cases result with
    | error fault => rfl
    | ok b => rfl
  | _ => rfl

namespace Procedure

open Monitor (core)

variable {α β : Type} {V : α → Prop} {asked : List Intent}

/-- **A board is what it was sent**, whatever replies have been taken from it. -/
theorem run_core (p : Procedure α) (m : Monitor) :
    (run p m).board.core = (m.receiveAll (run p m).sent).core := by
  induction p generalizing m with
  | done a => rfl
  | step intent next ih =>
    show (run (next (intent.run m).value) (intent.run m).board).board.core
      = (m.receiveAll ((intent.run m).sent
          ++ (run (next (intent.run m).value) (intent.run m).board).sent)).core
    rw [ih, Monitor.receiveAll_append]
    exact Monitor.core_receiveAll_congr (intent.run_core m) _

/-- What a steady procedure sends does not depend on the board. -/
theorem Steady.run_sent {p : Procedure α} (hp : Steady V asked p) (m : Monitor) :
    (run p m).sent = asked.flatMap Intent.wire := by
  induction hp generalizing m with
  | done ha => rfl
  | @exchange intent next asked hintent _ ih =>
    show (intent.run m).sent ++ (run (next (intent.run m).value) (intent.run m).board).sent = _
    rw [ih, intent.run_sent, List.flatMap_cons]
  | @aside intent next asked hintent _ ih =>
    show (intent.run m).sent ++ (run (next (intent.run m).value) (intent.run m).board).sent = _
    have hwire : intent.wire = [] := by
      cases intent with
      | send text => exact hintent.elim
      | _ => rfl
    rw [ih, intent.run_sent, hwire, List.nil_append]

/-- What comes last in a steady procedure is steady. -/
theorem IsSteady.of_bind {p : Procedure β} {q : Procedure α}
    (h : IsSteady V (p >>= fun _ => q)) : IsSteady V q := by
  induction p with
  | done b => exact h
  | step intent next ih =>
    obtain ⟨answer⟩ := intent.nonempty_answer
    obtain ⟨asked, hsteady⟩ := h
    cases hsteady with
    | exchange hintent hnext => exact ih answer ⟨_, hnext answer⟩
    | aside hintent hnext => exact ih answer ⟨_, hnext answer⟩

/-! ## What a procedure makes of the memory -/

/-- What the procedure makes of the memory depends on the memory alone. -/
def Determined (p : Procedure α) : Prop :=
  ∀ a b, a.SameMemory b → (run p a).board.SameMemory (run p b).board

theorem KeepsMemory.determined {p : Procedure α} (hp : KeepsMemory p) : Determined p :=
  fun a b h => (hp a).trans (h.trans (hp b).symm)

/-- The procedure selects a bank before it stores anything. -/
def Aims (p : Procedure α) : Prop :=
  ∃ (β : Type) (before : Procedure β) (bank : Nat) (next : Unit → Procedure α),
    KeepsMemory before ∧ p = before >>= fun _ => selectBank bank >>= next

theorem aims_selectBank (bank : Nat) : Aims (selectBank bank) :=
  ⟨Unit, pure (), bank, pure, keepsMemory_pure (), rfl⟩

theorem Aims.bind {p : Procedure α} (hp : Aims p) (f : α → Procedure β) : Aims (p >>= f) := by
  obtain ⟨γ, before, bank, next, hbefore, rfl⟩ := hp
  refine ⟨γ, before, bank, fun u => next u >>= f, hbefore, ?_⟩
  rw [Plan.bind_bind]
  simp only [Plan.bind_bind]

theorem Aims.after {p : Procedure α} (hp : Aims p) {q : Procedure β} (hq : KeepsMemory q) :
    Aims (q >>= fun _ => p) := by
  obtain ⟨γ, before, bank, next, hbefore, rfl⟩ := hp
  exact ⟨γ, q >>= fun _ => before, bank, next, hq.bind fun _ => hbefore, (Plan.bind_bind ..).symm⟩

/-- **A steady procedure that selects a bank before it stores anything** makes the same of the same
memory: wherever the pointer was and whatever digits and replies were waiting, both boards are in
the same state from then on and are sent the same bytes. -/
theorem Aims.determined {p : Procedure α} (hp : Aims p) (hsteady : IsSteady V p) :
    Determined p := by
  obtain ⟨γ, before, bank, next, hbefore, rfl⟩ := hp
  obtain ⟨asked, hnext⟩ := hsteady.of_bind.of_bind (p := selectBank bank) (q := next ())
  intro a b hab
  -- selecting a bank puts the pointer at its start and drops the digits that were waiting
  have hrun : ∀ m, (run (before >>= fun _ => selectBank bank >>= next) m).board
      = (run (next ()) ((run before m).board.pointAt (bank * Monitor.bankSize))).board := by
    intro m
    rw [run_bind]
    show (run (selectBank bank >>= next) (run before m).board).board = _
    rw [run_bind, run_selectBank]
    rfl
  rw [hrun a, hrun b]
  refine Monitor.SameMemory.of_core ?_
  -- from there on both boards are what they are sent, and they are sent the same
  rw [run_core, run_core, hnext.run_sent, hnext.run_sent]
  have hsame : (run before a).board.SameMemory (run before b).board :=
    hbefore.determined a b hab
  exact Monitor.core_receiveAll_congr (hsame.core_pointAt _) _

/-! ### The commands -/

theorem aims_setAddress (address : Nat) : Aims (setAddress address) :=
  (aims_selectBank _).bind _

theorem aims_eraseChip (bank : Nat) : Aims (eraseChip bank) :=
  ((aims_selectBank bank).bind _).after keepsMemory_halt

theorem aims_eraseSector (address : Nat) : Aims (eraseSector address) :=
  ((aims_selectBank _).bind _).after keepsMemory_halt

theorem aims_chipIdentity (bank : Nat) : Aims (chipIdentity bank) :=
  ((aims_selectBank bank).bind _).after fun _ => ⟨rfl, rfl, rfl, rfl⟩

end Procedure

namespace Purpose

open Procedure

/-- A file without segments is programmed without a store. -/
theorem keepsMemory_or_aims_transfer (p : Purpose) (segments : List ObjectFile.Segment) :
    KeepsMemory (p.transfer segments) ∨ Aims (p.transfer segments) := by
  cases p with
  | verify => exact .inl (keepsMemory_transfer rfl segments)
  | verifyRom => exact .inl (keepsMemory_transfer rfl segments)
  | flash =>
    have hprepare : Aims flash.prepare :=
      ((aims_eraseChip flashBank).bind _).after (keepsMemory_say _)
    rw [transfer_eq]
    exact .inr ((hprepare.bind _).after keepsMemory_halt)
  | program =>
    rw [transfer_eq]
    cases segments with
    | nil =>
      exact .inl (keepsMemory_halt.bind fun _ => (keepsMemory_pure ()).bind fun _ =>
        keepsMemory_say _)
    | cons s rest =>
      have hsegments : Aims (program.segments 0 (s :: rest)) := by
        rw [segments_cons]
        exact (((aims_setAddress _).bind _).bind _).after (keepsMemory_say _)
      exact .inr (((hsegments.bind _).after (keepsMemory_pure ())).after keepsMemory_halt)

end Purpose

namespace Command

open Procedure

variable (loader : Loader)

theorem keepsMemory_or_aims_transferFile (p : Purpose) (file : Option String) :
    KeepsMemory (transferFile loader p file) ∨ Aims (transferFile loader p file) := by
  cases file with
  | none => exact .inl (keepsMemory_say _)
  | some file =>
    rw [transferFile]
    cases loader.load file with
    | error fault => exact .inl ((keepsMemory_notes _).bind fun _ => keepsMemory_say _)
    | ok segments =>
      rcases p.keepsMemory_or_aims_transfer segments with h | h
      · exact .inl ((keepsMemory_notes _).bind fun _ => h)
      · exact .inr (h.after (keepsMemory_notes _))

/-- A command that stores something selects a bank first. -/
theorem keepsMemory_or_aims (command : Command) :
    KeepsMemory (command.procedure loader) ∨ Aims (command.procedure loader) := by
  cases command with
  | stop => exact .inl (keepsMemory_control rfl _)
  | go => exact .inl (keepsMemory_control rfl _)
  | reset => exact .inl (keepsMemory_control rfl _)
  | step => exact .inl (keepsMemory_control rfl _)
  | run => exact .inl (keepsMemory_control rfl _)
  | read addresses => exact .inl (keepsMemory_readMemory addresses)
  | write args =>
    match args with
    | none => exact .inl ((keepsMemory_pure _).bind fun _ => keepsMemory_say _)
    | some ⟨.invalid token, _, _⟩ =>
      exact .inl (((keepsMemory_say _).bind fun _ => keepsMemory_pure _).bind fun _ =>
        keepsMemory_say _)
    | some ⟨.valid address, _, _⟩ => exact .inr (((aims_setAddress address).bind _).bind _)
  | transfer p file => exact keepsMemory_or_aims_transferFile loader p file
  | mapRam => exact .inr (((aims_selectBank _).bind _).after keepsMemory_halt)
  | erase => exact .inr ((aims_eraseChip _).bind _)
  | eraseSector address =>
    match address with
    | none => exact .inl (keepsMemory_say _)
    | some (.invalid token) => exact .inl (keepsMemory_say _)
    | some (.valid address) => exact .inr ((aims_eraseSector address).bind _)
  | chipId => exact .inr ((aims_chipIdentity flashBank).bind _)
  | resync => exact .inl (keepsMemory_drain.bind fun _ => keepsMemory_pure ())
  | unknown name => exact .inl (keepsMemory_say _)

/-- A command that compares an object file stores nothing. -/
theorem keepsMemory_of_compares {command : Command} (h : command.compares = true) :
    KeepsMemory (command.procedure loader) := by
  cases command with
  | transfer p file =>
    show KeepsMemory (transferFile loader p file)
    cases file with
    | none => exact keepsMemory_say _
    | some file =>
      refine (keepsMemory_notes _).bind fun _ => ?_
      cases loader.load file with
      | error fault => exact keepsMemory_say _
      | ok segments => exact Purpose.keepsMemory_transfer h segments
  | _ => cases h

/-- **What a command makes of the memory depends on the memory alone.** -/
theorem determined (command : Command) : Determined (command.procedure loader) := by
  rcases command.keepsMemory_or_aims loader with h | h
  · exact h.determined
  · -- a command that compares is not steady, but then it stores nothing
    cases hcompares : command.compares with
    | false => exact h.determined (isSteady_procedure loader hcompares)
    | true => exact (keepsMemory_of_compares loader hcompares).determined

end Command

/-! ## Sessions -/

theorem discardedLines_eq_nil {count : Nat} : discardedLines count = [] ↔ count = 0 := by
  by_cases h : count = 0
  · exact iff_of_true (if_pos h) h
  · rw [discardedLines, if_neg h]
    exact iff_of_false (List.cons_ne_nil _ _) h

namespace Session

theorem dispatch_sameMemory {s t : Session Monitor} (h : s.link.SameMemory t.link)
    (loader : Loader) (words : List String) :
    (s.dispatch loader words).link.SameMemory (t.dispatch loader words).link := by
  cases hwords : Command.parse words with
  | none =>
    rw [dispatch, dispatch, hwords]
    exact h
  | some command =>
    rw [(dispatch_run_monitor s hwords).1, (dispatch_run_monitor t hwords).1]
    exact command.determined loader s.link t.link h

/-- Commands make the same of the same memory. -/
theorem dispatchAll_sameMemory {s t : Session Monitor} (h : s.link.SameMemory t.link)
    (lines : List (Loader × List String)) :
    (s.dispatchAll lines).link.SameMemory (t.dispatchAll lines).link := by
  induction lines generalizing s t with
  | nil => exact h
  | cons line lines ih => exact ih (dispatch_sameMemory h line.1 line.2)

theorem dispatch_alike {s t : Session Monitor} (h : s.link = t.link) (loader : Loader)
    (words : List String) :
    (s.dispatch loader words).link = (t.dispatch loader words).link ∧
      ∃ told, (s.dispatch loader words).transcript.toList = s.transcript.toList ++ told ∧
        (t.dispatch loader words).transcript.toList = t.transcript.toList ++ told := by
  cases hwords : Command.parse words with
  | none =>
    rw [dispatch, dispatch, hwords]
    exact ⟨h, [], (List.append_nil _).symm, (List.append_nil _).symm⟩
  | some command =>
    obtain ⟨hs, hs'⟩ := @dispatch_run_monitor loader _ _ s hwords
    obtain ⟨ht, ht'⟩ := @dispatch_run_monitor loader _ _ t hwords
    rw [hs, ht, h]
    rw [h] at hs'
    exact ⟨rfl, _, hs', ht'⟩

/-- The same commands do the same on the same board and tell the same. -/
theorem dispatchAll_alike {s t : Session Monitor} (h : s.link = t.link)
    (lines : List (Loader × List String)) :
    (s.dispatchAll lines).link = (t.dispatchAll lines).link ∧
      ∃ told, (s.dispatchAll lines).transcript.toList = s.transcript.toList ++ told ∧
        (t.dispatchAll lines).transcript.toList = t.transcript.toList ++ told := by
  induction lines generalizing s t with
  | nil => exact ⟨h, [], (List.append_nil _).symm, (List.append_nil _).symm⟩
  | cons line lines ih =>
    obtain ⟨hlink, told₁, hs₁, ht₁⟩ := dispatch_alike h line.1 line.2
    obtain ⟨hend, told₂, hs₂, ht₂⟩ := ih hlink
    refine ⟨hend, told₁ ++ told₂, ?_, ?_⟩
    · rw [dispatchAll_cons, hs₂, hs₁, List.append_assoc]
    · rw [dispatchAll_cons, ht₂, ht₁, List.append_assoc]

/-- The session with certain replies waiting on the board. -/
def withReplies (s : Session Monitor) (replies : Bytes) : Session Monitor :=
  { s with link := { s.link with replies } }

/-- Opening throws away what one read takes, and leaves the rest. -/
theorem opened_withReplies (s : Session Monitor) (stale : Bytes) :
    (s.withReplies stale).opened.link = { s.link with replies := stale.drop drainRoom } ∧
      (s.withReplies stale).opened.transcript.toList
        = s.transcript.toList ++ discardedLines (min drainRoom stale.length) := by
  obtain ⟨m, pacing, transcript, log⟩ := s
  have hlength : (stale.take drainRoom).length = min drainRoom stale.length := List.length_take
  simp only [opened, discard, withReplies, Link.readWithin, Monitor.drain]
  rw [← hlength]
  cases stale.take drainRoom with
  | nil => exact ⟨rfl, (List.append_nil _).symm⟩
  | cons b bs => exact ⟨rfl, Array.toList_push ..⟩

/-- A resync tells how much it has thrown away, and nothing else. -/
theorem run_resync_told (loader : Loader) (m : Monitor) :
    (Procedure.run (Command.procedure loader .resync) m).told
      = discardedLines (m.replies.take drainRoom).length := by
  show discardedLines (m.replies.take drainRoom).length ++ [] = _
  rw [List.append_nil]

theorem dispatchAll_resync (s : Session Monitor) :
    (s.dispatchAll [(.fixed [], ["resync"])]).transcript.toList
      = s.transcript.toList ++ discardedLines (min drainRoom s.link.replies.length) := by
  have hwords : Command.parse ["resync"] = some .resync := by decide +kernel
  rw [dispatchAll_cons, ← List.length_take, ← run_resync_told (.fixed [])]
  exact (dispatch_run_monitor s hwords).2

/-- **What stale bytes can and cannot change.**  Opening a link throws away the first stale bytes,
as many as one read takes, says how many they were if there were any, and leaves the rest waiting.

* Whatever commands follow, and however many bytes were stale, the memory in the end is the one that
  they leave on the same board without stale bytes.
* Everything else about the board is the same as well, the replies that wait included, whatever
  commands follow, exactly if one read takes all that is stale.
* And so are the transcripts, apart from what opening tells. -/
theorem opened_dispatchAll (s : Session Monitor) (stale : Bytes) :
    let old := (s.withReplies stale).opened
    let fresh := (s.withReplies []).opened
    (old.link.replies = stale.drop drainRoom ∧
      old.transcript.toList
        = s.transcript.toList ++ discardedLines (min drainRoom stale.length) ∧
      fresh.link.replies = [] ∧ fresh.transcript.toList = s.transcript.toList) ∧
      (∀ lines, (old.dispatchAll lines).link.SameMemory (fresh.dispatchAll lines).link) ∧
      ((∀ lines, (old.dispatchAll lines).link = (fresh.dispatchAll lines).link) ↔
        stale.length ≤ drainRoom) ∧
      ((∀ lines, ∃ told,
          (old.dispatchAll lines).transcript.toList
            = s.transcript.toList ++ discardedLines (min drainRoom stale.length) ++ told ∧
          (fresh.dispatchAll lines).transcript.toList = s.transcript.toList ++ told) ↔
        stale.length ≤ drainRoom) := by
  intro old fresh
  obtain ⟨holdLink, holdTold⟩ := s.opened_withReplies stale
  obtain ⟨hfreshLink, hfreshTold⟩ := s.opened_withReplies []
  have hfreshTold' : fresh.transcript.toList = s.transcript.toList :=
    hfreshTold.trans (List.append_nil _)
  -- one read takes all that is stale, and the boards are the same from then on
  have hlink : stale.length ≤ drainRoom → old.link = fresh.link := by
    intro hlength
    rw [holdLink, hfreshLink, List.drop_of_length_le hlength]
    rfl
  have hreplies : fresh.link.replies = [] := by
    rw [hfreshLink]
    rfl
  refine ⟨⟨by rw [holdLink], holdTold, hreplies, hfreshTold'⟩, fun lines => ?_,
    ⟨fun h => ?_, fun hlength lines => (dispatchAll_alike (hlink hlength) lines).1⟩, ?_, ?_⟩
  · refine dispatchAll_sameMemory ?_ lines
    rw [holdLink, hfreshLink]
    exact ⟨rfl, rfl, rfl, rfl⟩
  · -- before any command the boards differ by what is left
    have hsame : old.link.replies = fresh.link.replies := congrArg Monitor.replies (h [])
    rw [hreplies, holdLink] at hsame
    exact List.drop_eq_nil_iff.mp hsame
  · -- throwing stale bytes away once more shows whether any are left
    intro h
    obtain ⟨told, hold, hfresh⟩ := h [(.fixed [], ["resync"])]
    rw [dispatchAll_resync, hfreshTold', hfreshLink] at hfresh
    have htold : told = [] := List.append_cancel_left hfresh.symm
    rw [dispatchAll_resync, holdTold, holdLink, htold] at hold
    have hnone : discardedLines (min drainRoom (stale.drop drainRoom).length) = [] :=
      List.append_cancel_left hold
    have hcount := discardedLines_eq_nil.mp hnone
    rw [List.length_drop, drainRoom] at hcount
    rw [drainRoom]
    omega
  · intro hlength lines
    obtain ⟨-, told, hold, hfresh⟩ := dispatchAll_alike (hlink hlength) lines
    exact ⟨told, by rw [hold, holdTold], by rw [hfresh, hfreshTold']⟩

/-- Eighteen stale bytes are two more than one read takes.  They answer for the first byte that is
read, and every other byte that is read is the one before it. -/
theorem opened_stale_reply :
    let s : Session Monitor := ⟨{}, ⟨0⟩, #[], .quiet⟩
    let stale : Bytes := List.replicate 16 0x30 ++ [0x37, 0x46]
    let old := (s.withReplies stale).opened.dispatch (.fixed []) ["read", "0"]
    let fresh := (s.withReplies []).opened.dispatch (.fixed []) ["read", "0"]
    old.transcript.toList[1]? = some (.line
        "00000000  7F 00 00 00 00 00 00 00  00 00 00 00 00 00 00 00 [                ]") ∧
      fresh.transcript.toList[0]? = some (.line
        "00000000  00 00 00 00 00 00 00 00  00 00 00 00 00 00 00 00 [                ]") ∧
      ¬ ∃ told, old.transcript.toList = discardedLines 16 ++ told ∧
        fresh.transcript.toList = told := by
  intro s stale old fresh
  have hold : old.transcript.toList[1]? = some (.line
      "00000000  7F 00 00 00 00 00 00 00  00 00 00 00 00 00 00 00 [                ]") := by
    decide +kernel
  have hfresh : fresh.transcript.toList[0]? = some (.line
      "00000000  00 00 00 00 00 00 00 00  00 00 00 00 00 00 00 00 [                ]") := by
    decide +kernel
  refine ⟨hold, hfresh, ?_⟩
  rintro ⟨told, h, h'⟩
  have hsame : old.transcript.toList[1]? = fresh.transcript.toList[0]? := by
    rw [h, h']
    rfl
  rw [hold, hfresh] at hsame
  exact absurd hsame (by decide)

end Session

end Debugger

end BoardConsole
