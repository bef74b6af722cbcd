import BoardConsole.Link.Script
import BoardConsole.Proofs.Exchanges
import BoardConsole.Proofs.Intents

/-!
# Replies in pieces

A link may hand over what the target answers in any pieces.  A reply is put together from as many
reads as it takes, so a command that throws no stale bytes away cannot tell two links apart that
hand over the same bytes, wherever the borders of the pieces are.

- `Link.Simulation`: links of two kinds that a reply and a byte sent cannot tell apart.
- `Session.Alike`: sessions on such links with the same past.
- `Session.perform_alike`: **a procedure that throws nothing away keeps sessions alike**.
- `Script.readPair_plain`: what a reply is and leaves depends on the bytes to come, not on the
  pieces.
- `Session.dispatch_pieces`: what follows for every command but one.
-/

namespace BoardConsole

open Debugger

/-! ## What the other end notices -/

/-- The operation is one that the other end notices, as opposed to a read. -/
def Operation.isOutward : Operation → Bool
  | .write _ _ => true
  | .delay _ => true
  | .read _ _ => false
  | .readWithin _ _ _ => false

/-- The bytes sent and the time spent so far, in order. -/
def Tap.outward {σ : Type} (t : Tap σ) : List Operation :=
  t.traffic.toList.filter Operation.isOutward

/-- Links of two kinds do the same with every byte sent and every reply, and go on doing so. -/
structure Link.Simulation {σ τ : Type} [Link σ] [Link τ] (R : σ → τ → Prop) : Prop where
  write : ∀ {a b} (x), R a b →
    (Link.write a [x]).1 = (Link.write b [x]).1 ∧ R (Link.write a [x]).2 (Link.write b [x]).2
  delay : ∀ {a b} (micros), R a b → R (Link.delay a micros) (Link.delay b micros)
  readPair : ∀ {a b}, R a b → (Session.readPair a).1 = (Session.readPair b).1 ∧
    R (Session.readPair a).2 (Session.readPair b).2

namespace Debugger

/-- Sessions on two kinds of links with the same pacing and the same past: what has been told, what
has been sent and the time that has been spent. -/
structure Session.Alike {σ τ : Type} (R : σ → τ → Prop) (s : Session (Tap σ))
    (t : Session (Tap τ)) : Prop where
  link : R s.link.link t.link.link
  outward : s.link.outward = t.link.outward
  pacing : s.pacing = t.pacing
  transcript : s.transcript = t.transcript

/-- Awaiting a reply is nothing that the other end notices. -/
theorem outward_pairReads {σ : Type} [Link σ] (link : σ) :
    (pairReads link).filter Operation.isOutward = [] := by
  have hreads := reads_pairReads link
  generalize (Session.readPair link).1 = delivery at hreads
  generalize pairReads link = ops at hreads ⊢
  cases hreads <;> rfl

namespace Session

variable {σ τ : Type} {R : σ → τ → Prop} {s : Session (Tap σ)} {t : Session (Tap τ)}

/-! ## One intent -/

theorem Alike.tell (h : Alike R s t) (entry : Entry) : Alike R (s.tell entry) (t.tell entry) :=
  ⟨h.link, h.outward, h.pacing, congrArg (Array.push · entry) h.transcript⟩

/-- What is remarked in the log does not matter. -/
theorem Alike.note (h : Alike R s t) {level level' : Log.Level} (text text' : Unit → String) :
    Alike R (s.note level text) (t.note level' text') :=
  ⟨h.link, h.outward, h.pacing, h.transcript⟩

variable [Link σ] [Link τ] (sim : Link.Simulation R)
include sim

theorem Alike.wait (h : Alike R s t) (micros : Nat) : Alike R (s.wait micros) (t.wait micros) := by
  refine ⟨sim.delay micros h.link, ?_, h.pacing, h.transcript⟩
  show ((s.link.traffic.push (.delay micros)).toList).filter _
    = ((t.link.traffic.push (.delay micros)).toList).filter _
  rw [Array.toList_push, Array.toList_push, List.filter_append, List.filter_append]
  exact congrArg (· ++ _) h.outward

theorem Alike.sendByte (h : Alike R s t) (x : UInt8) :
    (s.sendByte x).1 = (t.sendByte x).1 ∧ Alike R (s.sendByte x).2 (t.sendByte x).2 := by
  obtain ⟨hresult, hlink⟩ := sim.write x h.link
  obtain ⟨⟨link, traffic⟩, pacing, transcript, log⟩ := s
  obtain ⟨⟨link', traffic'⟩, pacing', transcript', log'⟩ := t
  obtain ⟨-, houtward, rfl, htranscript⟩ := h
  simp only [Session.sendByte, Link.write, Tap.write]
  simp only [Tap.outward] at houtward
  generalize Link.write link [x] = out at hresult hlink ⊢
  generalize Link.write link' [x] = out' at hresult hlink ⊢
  obtain ⟨result, link₁⟩ := out
  obtain ⟨_, link₁'⟩ := out'
  cases hresult
  have hpushed : ∀ ops : List Operation,
      (traffic.toList ++ ops).filter Operation.isOutward
        = (traffic'.toList ++ ops).filter Operation.isOutward := by
    intro ops
    rw [List.filter_append, List.filter_append, houtward]
  cases result with
  | error fault =>
    refine ⟨rfl, hlink, ?_, rfl, htranscript⟩
    simpa only [Tap.outward, Array.toList_push] using hpushed _
  | ok count =>
    cases pacing.charDelay with
    | none =>
      refine ⟨rfl, hlink, ?_, rfl, htranscript⟩
      simpa only [Tap.outward, Array.toList_push] using hpushed _
    | some micros =>
      refine ⟨rfl, sim.delay micros hlink, ?_, rfl, htranscript⟩
      simpa only [Tap.outward, Link.delay, Tap.delay, Array.toList_push, List.append_assoc]
        using hpushed _

theorem Alike.sendBytes (h : Alike R s t) (bs : Bytes) :
    Alike R (s.sendBytes bs) (t.sendBytes bs) := by
  induction bs generalizing s t with
  | nil => exact h
  | cons b bs ih =>
    obtain ⟨hresult, hrest⟩ := h.sendByte sim b
    rw [Session.sendBytes, Session.sendBytes]
    generalize s.sendByte b = out at hresult hrest ⊢
    generalize t.sendByte b = out' at hresult hrest ⊢
    obtain ⟨result, s'⟩ := out
    obtain ⟨_, t'⟩ := out'
    cases hresult
    cases result with
    | none => exact ih hrest
    | some fault => exact (hrest.note _ _).tell _

theorem Alike.receive (h : Alike R s t) :
    s.receive.1 = t.receive.1 ∧ Alike R s.receive.2 t.receive.2 := by
  have hreply : (readReply s.link).1 = (readReply t.link).1 ∧
      R (readReply s.link).2.link (readReply t.link).2.link := by
    obtain ⟨hpair, hlink⟩ := sim.readPair h.link
    have huntap := readReply_untap s.link
    have huntap' := readReply_untap t.link
    rw [readReply_eq, Prod.mk.injEq] at huntap huntap'
    rw [← huntap.1, ← huntap.2, ← huntap'.1, ← huntap'.2, hpair]
    exact ⟨rfl, hlink⟩
  have houtward : (readReply s.link).2.outward = (readReply t.link).2.outward := by
    rw [Tap.outward, Tap.outward, readReply_traffic, readReply_traffic, List.filter_append,
      List.filter_append, outward_pairReads, outward_pairReads]
    exact congrArg (· ++ []) h.outward
  obtain ⟨link, pacing, transcript, log⟩ := s
  obtain ⟨link', pacing', transcript', log'⟩ := t
  obtain ⟨hresult, hlink⟩ := hreply
  simp only [Session.receive]
  dsimp only at hresult hlink houtward
  generalize readReply link = out at hresult hlink houtward ⊢
  generalize readReply link' = out' at hresult hlink houtward ⊢
  obtain ⟨result, link₁⟩ := out
  obtain ⟨_, link₁'⟩ := out'
  cases hresult
  have hafter : Alike R (⟨link₁, pacing, transcript, log⟩ : Session (Tap σ))
      ⟨link₁', pacing', transcript', log'⟩ := ⟨hlink, houtward, h.pacing, h.transcript⟩
  cases result with
  | ok b => exact ⟨rfl, hafter.note _ _⟩
  | error fault => exact ⟨rfl, (hafter.note _ _).tell _⟩

theorem Alike.carryOut (h : Alike R s t) {intent : Intent} (hintent : intent ≠ .drain) :
    (s.carryOut intent).1 = (t.carryOut intent).1 ∧
      Alike R (s.carryOut intent).2 (t.carryOut intent).2 := by
  cases intent with
  | send text => exact ⟨rfl, (h.note _ _).sendBytes sim _⟩
  | reply => exact h.receive sim
  | drain => exact absurd rfl hintent
  | settle micros => exact ⟨rfl, h.wait sim micros⟩
  | tell entry => exact ⟨rfl, h.tell entry⟩
  | note record => exact ⟨rfl, h.note _ _⟩

/-! ## Whole procedures -/

/-- **A procedure that throws nothing away keeps sessions alike**, and ends with the same value on
both: by induction on the plan, since the answers to its first intent are the same. -/
theorem perform_alike {α : Type} {p : Procedure α} (hp : p.Only (· ≠ .drain)) (h : Alike R s t) :
    (s.perform p).1 = (t.perform p).1 ∧ Alike R (s.perform p).2 (t.perform p).2 := by
  induction p generalizing s t with
  | done a => exact ⟨rfl, h⟩
  | step intent next ih =>
    obtain ⟨hanswer, hrest⟩ := h.carryOut sim hp.1
    rw [perform_step, perform_step, hanswer]
    exact ih _ (hp.2 _) hrest

end Session

end Debugger

/-! ## Scripts -/

namespace Script

/-- The bytes that the reads of a script have yet to give. -/
def unread (s : Script) : Bytes := s.reads.flatMap fun result => result.toOption.getD []

/-- A script that takes every byte from now on and replies with bytes, some at a time, until there
are no more. -/
structure Plain (s : Script) : Prop where
  takes : ∀ n, s.writes ≤ n → ({ s with writes := n } : Script).refuses = false
  replies : ∀ result ∈ s.reads, ∃ b bs, result = .ok (b :: bs)

/-- Plain scripts with the same bytes to come, in any pieces, and the same end. -/
structure SameBytes (s t : Script) : Prop where
  left : s.Plain
  right : t.Plain
  unread : s.unread = t.unread
  ending : s.ending = t.ending

/-- A script in which no writes fail and all replies are pieces of some bytes. -/
theorem plain_of_pieces {pieces : List Bytes} (h : ∀ piece ∈ pieces, piece ≠ [])
    (ending : Option Fault) : Plain { reads := pieces.map .ok, ending } := by
  refine ⟨fun n _ => ?_, fun result hresult => ?_⟩
  · simp [refuses]
  · obtain ⟨piece, hpiece, rfl⟩ := List.mem_map.mp hresult
    obtain ⟨b, bs, rfl⟩ := List.exists_cons_of_ne_nil (h piece hpiece)
    exact ⟨b, bs, rfl⟩

namespace Plain

variable {s : Script}

theorem write (h : s.Plain) (bs : Bytes) :
    Link.write s bs = (.ok bs.length, { s with writes := s.writes + 1 }) ∧
      ({ s with writes := s.writes + 1 } : Script).Plain := by
  refine ⟨?_, fun n hn => h.takes n (Nat.le_of_succ_le hn), h.replies⟩
  show s.write bs = _
  rw [Script.write, h.takes s.writes (Nat.le_refl _)]
  rfl

/-- A script stays plain as long as its reads are pieces. -/
theorem with_reads (h : s.Plain) {reads : List (Except Fault Bytes)}
    (hreads : ∀ result ∈ reads, ∃ b bs, result = .ok (b :: bs)) :
    ({ s with reads } : Script).Plain := ⟨h.takes, hreads⟩

/-- A script without bytes to come is at its end. -/
theorem reads_of_unread (h : s.Plain) (hunread : s.unread = []) : s.reads = [] := by
  cases hreads : s.reads with
  | nil => rfl
  | cons result rest =>
    obtain ⟨b, bs, rfl⟩ := h.replies result (hreads ▸ List.mem_cons_self)
    rw [Script.unread, hreads, List.flatMap_cons] at hunread
    cases hunread

/-- A read gives some of the bytes to come, at least one and as many as there is room for, and
leaves the others. -/
theorem read (h : s.Plain) {x : UInt8} {xs : Bytes} (hunread : s.unread = x :: xs) {room : Nat}
    (hroom : 0 < room) :
    ∃ given reads, Link.read s room = (.ok (x :: given), { s with reads }) ∧
      ({ s with reads } : Script).Plain ∧ given ++ ({ s with reads } : Script).unread = xs ∧
      given.length < room := by
  cases hreads : s.reads with
  | nil =>
    rw [Script.unread, hreads] at hunread
    cases hunread
  | cons result rest =>
    have hrest : ∀ r ∈ rest, ∃ b bs, r = Except.ok (b :: bs) := fun r hr =>
      h.replies r (hreads ▸ List.mem_cons_of_mem _ hr)
    obtain ⟨b, bs, rfl⟩ := h.replies result (hreads ▸ List.mem_cons_self)
    obtain ⟨room, rfl⟩ := Nat.exists_eq_succ_of_ne_zero (Nat.ne_of_gt hroom)
    rw [Script.unread, hreads, List.flatMap_cons] at hunread
    obtain ⟨rfl, hxs⟩ := List.cons.inj hunread
    have hread : Link.read s (room + 1) = (.ok (b :: bs.take room),
        { s with
          reads := if bs.length ≤ room then rest else .ok (bs.drop room) :: rest }) := by
      show s.read (room + 1) = _
      rw [Script.read, hreads]
      simp only [List.take_succ_cons, List.drop_succ_cons, List.length_cons,
        Nat.add_le_add_iff_right]
    have hlength : (bs.take room).length < room + 1 := by
      rw [List.length_take]
      omega
    rw [hread]
    by_cases hfits : bs.length ≤ room
    · rw [if_pos hfits, List.take_of_length_le hfits]
      exact ⟨bs, rest, rfl, h.with_reads hrest, hxs, by omega⟩
    · -- what is left of the piece stays in front of the others
      obtain ⟨c, cs, hdrop⟩ := List.exists_cons_of_ne_nil
        (List.drop_eq_nil_iff.not.mpr hfits)
      rw [if_neg hfits]
      refine ⟨bs.take room, _, rfl, h.with_reads ?_, ?_, hlength⟩
      · rw [hdrop]
        exact List.forall_mem_cons.mpr ⟨⟨c, cs, rfl⟩, hrest⟩
      · rw [← hxs, Script.unread, List.flatMap_cons, ← List.append_assoc]
        exact congrArg (· ++ _) (List.take_append_drop room bs)

end Plain

/-- What a reply is when certain bytes are to come and then a certain end. -/
def pair (ending : Option Fault) : Bytes → Delivery
  | first :: second :: _ => .ok [first, second]
  | _ => .error (ending.getD .timeout)

/-- At its end a script gives nothing, time and again, and says why or does not. -/
theorem read_end {s : Script} (h : s.reads = []) :
    (∀ room, Link.read s room = (.error (s.ending.getD .timeout), s)) ∨
      (s.ending.getD .timeout = .timeout ∧ ∀ room, Link.read s room = (.ok [], s)) := by
  have hread : ∀ room, Link.read s room = (s.ending.elim (.ok []) .error, s) := by
    intro room
    show s.read room = _
    rw [Script.read, h]
    cases s.ending <;> rfl
  cases hending : s.ending with
  | none => exact .inr ⟨rfl, fun room => by rw [hread, hending]; rfl⟩
  | some fault => exact .inl fun room => by rw [hread, hending]; rfl

/-- **A reply depends on the bytes to come, not on the pieces**: it takes two of them, if there are
so many, and otherwise the last. -/
theorem readPair_plain {s : Script} (h : s.Plain) :
    ∃ reads, Session.readPair s = (pair s.ending s.unread, { s with reads }) ∧
      ({ s with reads } : Script).Plain ∧
      ({ s with reads } : Script).unread = s.unread.drop 2 := by
  rw [Session.readPair]
  rcases hunread : s.unread with _ | ⟨x, _ | ⟨y, rest⟩⟩
  · refine ⟨s.reads, ?_, h, hunread⟩
    rcases read_end (h.reads_of_unread hunread) with hread | ⟨hending, hread⟩
    · rw [hread]
      rfl
    · rw [hread]
      exact congrArg (fun fault => (Except.error fault, s)) hending.symm
  · obtain ⟨given, reads, hread, hplain, hrest, -⟩ := h.read hunread (show 0 < 2 by decide)
    obtain ⟨rfl, hrest⟩ := List.append_eq_nil_iff.mp hrest
    refine ⟨reads, ?_, hplain, hrest⟩
    rw [hread]
    dsimp only
    rcases read_end (hplain.reads_of_unread hrest) with hread | ⟨hending, hread⟩
    · rw [hread]
      rfl
    · rw [hread]
      exact congrArg (fun fault => (Except.error fault, ({ s with reads } : Script))) hending.symm
  · obtain ⟨given, reads, hread, hplain, hrest, hlength⟩ :=
      h.read hunread (show 0 < 2 by decide)
    rw [hread]
    cases given with
    | nil =>
      -- the other half of the reply comes with another piece
      obtain ⟨given', reads', hread', hplain', hrest', hlength'⟩ :=
        hplain.read hrest (show 0 < 1 by decide)
      obtain rfl : given' = [] := List.eq_nil_of_length_eq_zero (by omega)
      dsimp only
      rw [hread']
      exact ⟨reads', rfl, hplain', hrest'⟩
    | cons z zs =>
      obtain rfl : zs = [] :=
        List.eq_nil_of_length_eq_zero (by rw [List.length_cons] at hlength; omega)
      obtain ⟨rfl, htail⟩ := List.cons.inj hrest
      exact ⟨reads, rfl, hplain, htail⟩

/-- **Scripts with the same bytes to come cannot be told apart.** -/
theorem sameBytes_simulation : Link.Simulation SameBytes where
  write x h := by
    obtain ⟨hwrite, hplain⟩ := h.left.write [x]
    obtain ⟨hwrite', hplain'⟩ := h.right.write [x]
    rw [hwrite, hwrite']
    exact ⟨rfl, hplain, hplain', h.unread, h.ending⟩
  delay _ h := h
  readPair {a b} h := by
    obtain ⟨reads, hpair, hplain, hunread⟩ := readPair_plain h.left
    obtain ⟨reads', hpair', hplain', hunread'⟩ := readPair_plain h.right
    have hsame : pair a.ending a.unread = pair b.ending b.unread := by rw [h.ending, h.unread]
    rw [hpair, hpair']
    exact ⟨hsame, hplain, hplain', by rw [hunread, hunread', h.unread], h.ending⟩

end Script

/-! ## Commands -/

namespace Debugger

/-- Throwing stale bytes away is none of the common intents. -/
theorem common_ne_drain : Intent.Common (· ≠ Intent.drain) :=
  ⟨fun _ => Intent.noConfusion, Intent.noConfusion, fun _ => Intent.noConfusion,
    fun _ => Intent.noConfusion⟩

namespace Session

/-- **Replies may come in any pieces.**  Two sessions with the same past on plain scripts with the
same bytes to come are alike again after any command but the one that throws stale bytes away: the
same has been sent and told, as much time has been spent at the same points, and the same bytes are
still to come. -/
theorem dispatch_pieces {s t : Session (Tap Script)} (loader : Loader) {words : List String}
    (h : Alike Script.SameBytes s t) (hwords : Command.parse words ≠ some .resync) :
    Alike Script.SameBytes (s.dispatch loader words) (t.dispatch loader words) := by
  rw [dispatch, dispatch]
  cases hparse : Command.parse words with
  | none => exact h
  | some command =>
    have honly : (command.procedure loader).Only (· ≠ .drain) :=
      common_ne_drain.only_procedure loader (fun _ _ => Intent.noConfusion) fun hresync =>
        absurd (hresync ▸ hparse) hwords
    exact (perform_alike Script.sameBytes_simulation honly (h.note _ _)).2

/-- An identity in pieces with borders inside both replies and in one piece with a byte that nobody
asks for, which is all that is left on both links. -/
theorem dispatch_pieces_chipId :
    let script : List Bytes → Script := fun pieces => { reads := pieces.map .ok }
    let s : Session (Tap Script) :=
      ⟨⟨script [[0x42], [0x46, 0x44], [0x37], [0x39]], #[]⟩, ⟨9600⟩, #[], .quiet⟩
    let t : Session (Tap Script) :=
      ⟨⟨script [[0x42, 0x46, 0x44, 0x37, 0x39]], #[]⟩, ⟨9600⟩, #[], .quiet⟩
    Alike Script.SameBytes (s.dispatch (.fixed []) ["chipid"]) (t.dispatch (.fixed []) ["chipid"]) ∧
      (t.dispatch (.fixed []) ["chipid"]).link.link.unread = [0x39] ∧
      (t.dispatch (.fixed []) ["chipid"]).transcript.toList
        = [.line "Manufacturer: SST, device: 39xF040 (512K)"] := by
  intro script s t
  have hsame : Script.SameBytes s.link.link t.link.link :=
    ⟨Script.plain_of_pieces (by decide) none, Script.plain_of_pieces (by decide) none, rfl, rfl⟩
  exact ⟨dispatch_pieces (.fixed []) ⟨hsame, rfl, rfl, rfl⟩ (by decide +kernel),
    by decide +kernel, by decide +kernel⟩

end Session

end Debugger

end BoardConsole
