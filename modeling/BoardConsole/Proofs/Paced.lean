import BoardConsole.Proofs.Intents
import BoardConsole.Proofs.Servicing
import BoardConsole.Proofs.Exchanges

/-!
# The pace of what is sent

The target loses characters that come too fast, and nothing shows it.  So whoever sends has to send
bytes one by one and to pause after each that is taken, whatever the link does and wherever a
command or a transfer is given up.  No other time is spent, except that an erase is given the time
it takes.

- `Paced`: traffic at a pace, with the times that are given in it.
- `Pacing.Kept`: what this means for every write in the traffic, from `Paced.kept`.
- `Debugger.Settled`: time is given right after the cycle that completes an erase, and as much as
  that kind of erase takes.
- `Console.handle_paces`: whatever the console does about a request is at the pace of its link.
- `pacing_kept`: **the pace is kept** by every command and by the console, over any link.
-/

namespace BoardConsole

open Debugger (Exchange Delivery)

/-! ## Traffic at a pace -/

/-- The pause after a byte, as traffic. -/
def Pacing.pauses (p : Pacing) : List Operation := p.charDelay.toList.map .delay

/-- Traffic at a pace: bytes are sent one by one, each that is taken is followed by its pause, and
the only other waits are certain times that are given. -/
inductive Paced (p : Pacing) : List Nat → List Operation → Prop
  | nil : Paced p [] []
  | taken (b : UInt8) {settles : List Nat} {ops : List Operation} (rest : Paced p settles ops) :
    Paced p settles (.write [b] true :: (p.pauses ++ ops))
  | refused (b : UInt8) {settles : List Nat} {ops : List Operation} (rest : Paced p settles ops) :
    Paced p settles (.write [b] false :: ops)
  | read (room : Nat) (got : Option Bytes) {settles : List Nat} {ops : List Operation}
    (rest : Paced p settles ops) : Paced p settles (.read room got :: ops)
  | readWithin (room limit : Nat) (got : Option Bytes) {settles : List Nat} {ops : List Operation}
    (rest : Paced p settles ops) : Paced p settles (.readWithin room limit got :: ops)
  | settle (micros : Nat) {settles : List Nat} {ops : List Operation} (rest : Paced p settles ops) :
    Paced p (micros :: settles) (.delay micros :: ops)

/-- What a pace means for traffic, in figures: every write is one byte, the pause due comes right
after each that is taken, and a wait right after one that is refused is one of the times given.
Without a speed those are all the waits there are. -/
structure Pacing.Kept (p : Pacing) (settles : List Nat) (ops : List Operation) : Prop where
  paced : Paced p settles ops
  single : ∀ before bytes taken after, ops = before ++ .write bytes taken :: after →
    bytes.length = 1
  taken : 0 < p.speed → ∀ before bytes after, ops = before ++ .write bytes true :: after →
    after.head? = some (.delay (10000000 / p.speed))
  refused : ∀ before bytes after micros,
    ops = before ++ .write bytes false :: .delay micros :: after → micros ∈ settles
  unpaced : p.speed = 0 → ops.filterMap Operation.wait? = settles

namespace Paced

variable {p : Pacing} {settles settles' : List Nat} {ops ops' : List Operation}

theorem append (h : Paced p settles ops) (h' : Paced p settles' ops') :
    Paced p (settles ++ settles') (ops ++ ops') := by
  induction h with
  | nil => exact h'
  | taken b _ ih =>
    rw [List.cons_append, List.append_assoc]
    exact .taken b ih
  | refused b _ ih => exact .refused b ih
  | read room got _ ih => exact .read room got ih
  | readWithin room limit got _ ih => exact .readWithin room limit got ih
  | settle micros _ ih => exact .settle micros ih

/-- An operation that is not the one looked for has it behind itself. -/
theorem behind {op sought : Operation} {before after : List Operation} (hne : op ≠ sought)
    (hops : op :: ops = before ++ sought :: after) : ∃ front, ops = front ++ sought :: after := by
  rcases before with _ | ⟨first, front⟩
  · exact absurd (List.cons.inj hops).1 hne
  · exact ⟨front, (List.cons.inj hops).2⟩

/-- What comes after a write is the pause due, if the byte was taken, and then traffic at the same
pace. -/
theorem after_write (h : Paced p settles ops) {before after : List Operation} {bytes : Bytes}
    {taken : Bool} (hops : ops = before ++ .write bytes taken :: after) :
    ∃ b settles' rest, bytes = [b] ∧ after = (if taken then p.pauses else []) ++ rest ∧
      Paced p settles' rest ∧ settles' <:+ settles := by
  induction h generalizing before with
  | nil => simp at hops
  | taken b rest ih =>
    rcases before with _ | ⟨op, before⟩
    · cases hops
      exact ⟨b, _, _, rfl, rfl, rest, List.suffix_rfl⟩
    · -- the write is no pause, so it is in what follows the pause
      have htail := (List.cons.inj hops).2
      rw [Pacing.pauses] at htail
      cases hdelay : p.charDelay with
      | none =>
        rw [hdelay] at htail
        exact ih htail
      | some micros =>
        rw [hdelay] at htail
        obtain ⟨_, hrest⟩ := behind Operation.noConfusion htail
        exact ih hrest
  | refused b rest ih =>
    rcases before with _ | ⟨op, before⟩
    · cases hops
      exact ⟨b, _, _, rfl, rfl, rest, List.suffix_rfl⟩
    · exact ih (List.cons.inj hops).2
  | read room got _ ih =>
    obtain ⟨_, hrest⟩ := behind Operation.noConfusion hops
    exact ih hrest
  | readWithin room limit got _ ih =>
    obtain ⟨_, hrest⟩ := behind Operation.noConfusion hops
    exact ih hrest
  | settle micros _ ih =>
    obtain ⟨_, hrest⟩ := behind Operation.noConfusion hops
    obtain ⟨b, settles', rest, hb, hafter, hpaced, hsuffix⟩ := ih hrest
    exact ⟨b, settles', rest, hb, hafter, hpaced, hsuffix.trans (List.suffix_cons ..)⟩

/-- Without a speed no byte is followed by a pause. -/
theorem waits_unpaced (h : Paced p settles ops) (hspeed : p.speed = 0) :
    ops.filterMap Operation.wait? = settles := by
  have hpauses : p.pauses = [] := by rw [Pacing.pauses, Pacing.charDelay, if_pos hspeed]; rfl
  induction h with
  | nil => rfl
  | taken b _ ih => rwa [hpauses]
  | refused b _ ih => exact ih
  | read room got _ ih => exact ih
  | readWithin room limit got _ ih => exact ih
  | settle micros _ ih => exact congrArg (micros :: ·) ih

/-- **A pace is kept at every write.** -/
theorem kept (h : Paced p settles ops) : p.Kept settles ops where
  paced := h
  single before bytes taken after hops := by
    obtain ⟨b, -, -, rfl, -, -, -⟩ := h.after_write hops
    rfl
  taken hspeed before bytes after hops := by
    obtain ⟨b, -, rest, -, rfl, -, -⟩ := h.after_write hops
    rw [if_pos rfl, Pacing.pauses, Pacing.charDelay, if_neg (Nat.ne_of_gt hspeed)]
    rfl
  refused before bytes after micros hops := by
    obtain ⟨b, settles', rest, -, hafter, hrest, hsuffix⟩ := h.after_write hops
    -- no pause is due, so the wait can only be a time that is given
    rw [if_neg Bool.false_ne_true, List.nil_append] at hafter
    subst hafter
    cases hrest
    exact hsuffix.subset List.mem_cons_self
  unpaced := h.waits_unpaced

/-- A string of which some bytes are taken and then one may be refused. -/
theorem sent (p : Pacing) (text : List Char) (taken : Bytes) (refusal : Option Debugger.Refusal) :
    Paced p [] ((Exchange.sent text taken refusal).operations p) := by
  induction taken with
  | nil =>
    cases refusal with
    | none => exact .nil
    | some r => exact .refused r.byte .nil
  | cons b taken ih =>
    rw [Exchange.operations, List.flatMap_cons, List.append_assoc]
    exact .taken b ih

end Paced

/-! ## The debugger -/

namespace Debugger

/-- The time that an exchange gives the target. -/
def Exchange.settle? : Exchange → Option Nat
  | .waited micros => some micros
  | .sent _ _ _ => none
  | .answered _ _ => none
  | .drained _ => none

theorem Exchange.Genuine.paced {x : Exchange} (h : x.Genuine) (p : Pacing) :
    Paced p x.settle?.toList (x.operations p) := by
  cases x with
  | sent text taken refusal => exact .sent p text taken refusal
  | answered delivery reads =>
    have hreads : delivery.Reads reads := h
    cases hreads with
    | failed fault => exact .read _ _ .nil
    | silent => exact .read _ _ .nil
    | whole first second => exact .read _ _ .nil
    | halfFailed first fault => exact .read _ _ (.read _ _ .nil)
    | halfSilent first => exact .read _ _ (.read _ _ .nil)
    | halves first second => exact .read _ _ (.read _ _ .nil)
  | drained got => exact .readWithin _ _ _ .nil
  | waited micros => exact .settle _ .nil

/-- The traffic of exchanges is at the pace, with the times that they give. -/
theorem paced_exchanges {xs : List Exchange} (h : ∀ x ∈ xs, x.Genuine) (p : Pacing) :
    Paced p (xs.filterMap Exchange.settle?) (xs.flatMap (Exchange.operations p)) := by
  induction xs with
  | nil => exact .nil
  | cons x xs ih =>
    have hx := (h x List.mem_cons_self).paced p
    have hrest := ih fun y hy => h y (List.mem_cons_of_mem x hy)
    have hsettles : (x :: xs).filterMap Exchange.settle?
        = x.settle?.toList ++ xs.filterMap Exchange.settle? := by
      rw [List.filterMap_cons]
      cases x.settle? <;> rfl
    rw [hsettles, List.flatMap_cons]
    exact hx.append hrest

/-! ### Time for erasing -/

/-- What is asked of the link for a byte stored at an offset of the selected bank. -/
def storeIntents (offset : Nat) (value : UInt8) : List Intent :=
  [.send (Hex.encode offset 4), .send ['#'], .send (Hex.encode value.toNat 2), .send ['!']]

/-- Time is given only right after the cycle that completes an erase: a tenth of a second for the
whole chip, half as much for a sector. -/
inductive Settled : List Exchange → Prop
  | nil : Settled []
  | other {x : Exchange} {xs : List Exchange} (hx : x.settle? = none) (rest : Settled xs) :
    Settled (x :: xs)
  | chip (cycle : List Exchange) {xs : List Exchange}
    (hcycle : cycle.map Exchange.intent = storeIntents 0x5555 0x10) (rest : Settled xs) :
    Settled (cycle ++ .waited 100000 :: xs)
  | sector (offset : Nat) (cycle : List Exchange) {xs : List Exchange}
    (hcycle : cycle.map Exchange.intent = storeIntents offset 0x30) (rest : Settled xs) :
    Settled (cycle ++ .waited 50000 :: xs)

theorem Settled.append {xs ys : List Exchange} (h : Settled xs) (h' : Settled ys) :
    Settled (xs ++ ys) := by
  induction h with
  | nil => exact h'
  | other hx _ ih => exact .other hx ih
  | chip cycle hcycle _ ih =>
    rw [List.append_assoc]
    exact .chip cycle hcycle ih
  | sector offset cycle hcycle _ ih =>
    rw [List.append_assoc]
    exact .sector offset cycle hcycle ih

section

variable {σ : Type} [Link σ] {α β : Type}

theorem Procedure.exchanges_bind (p : Procedure α) (f : α → Procedure β) (s : Session σ) :
    (p >>= f).exchanges s = p.exchanges s ++ (f (s.perform p).1).exchanges (s.perform p).2 := by
  induction p generalizing s with
  | done a => rfl
  | step intent next ih =>
    rw [Plan.step_bind, exchanges_step, ih, ← List.append_assoc]
    rfl

variable (σ) in
/-- On any session over the link the procedure gives time only to erases. -/
def Settles (p : Procedure α) : Prop := ∀ s : Session σ, Settled (p.exchanges s)

namespace Settles

open Procedure

theorem bind {p : Procedure α} {f : α → Procedure β} (hp : Settles σ p)
    (hf : ∀ a, Settles σ (f a)) : Settles σ (p >>= f) := by
  intro s
  rw [exchanges_bind]
  exact (hp s).append (hf _ _)

/-- The intent gives the target no time. -/
def Prompt (intent : Intent) : Prop := ∀ micros, intent ≠ .settle micros

theorem common_prompt : Intent.Common Prompt :=
  ⟨fun _ _ => nofun, fun _ => nofun, fun _ _ => nofun, fun _ _ => nofun⟩

/-- Who gives no time gives it to no one. -/
theorem of_prompt {p : Procedure α} (hp : p.Only Prompt) : Settles σ p := by
  induction p with
  | done a => exact fun _ => .nil
  | step intent next ih =>
    intro s
    have hrest := ih (s.carryOut intent).1 (hp.2 _) (s.carryOut intent).2
    rw [exchanges_step]
    cases intent with
    | settle micros => exact absurd rfl (hp.1 micros)
    | send text => exact .other rfl hrest
    | reply => exact .other rfl hrest
    | drain => exact .other rfl hrest
    | tell entry => exact hrest
    | note record => exact hrest

theorem chip : Settles σ (sendCommand 0x5555 0x10 >>= fun _ => settle 100000) := fun _ =>
  .chip [_, _, _, _] rfl .nil

theorem sector (offset : Nat) :
    Settles σ (sendCommand offset 0x30 >>= fun _ => settle 50000) := fun _ =>
  .sector offset [_, _, _, _] rfl .nil

theorem eraseChip : Settles σ (eraseChip flashBank) := by
  refine (of_prompt (common_prompt.only_send _)).bind fun _ => ?_
  refine (of_prompt (only_selectBank common_prompt.send _)).bind fun _ => ?_
  exact (of_prompt common_prompt.only_eraseSetup).bind fun _ => chip

theorem eraseSector (address : Nat) : Settles σ (eraseSector address) := by
  refine (of_prompt (common_prompt.only_send _)).bind fun _ => ?_
  refine (of_prompt (only_selectBank common_prompt.send _)).bind fun _ => ?_
  refine (of_prompt common_prompt.only_eraseSetup).bind fun _ => ?_
  exact (of_prompt (only_selectBank common_prompt.send _)).bind fun _ => sector _

theorem flash (segments : List ObjectFile.Segment) :
    Settles σ (Purpose.flash.transfer segments) := by
  have hsay : ∀ text, Settles σ (say text) := fun text => of_prompt (common_prompt.only_say text)
  rw [Purpose.transfer_eq]
  refine (of_prompt (common_prompt.only_send _)).bind fun _ => bind ?_ fun _ => ?_
  · exact (hsay _).bind fun _ => eraseChip.bind fun _ => hsay _
  · exact of_prompt (common_prompt.only_conclude .flash segments)

/-- **Every command gives time to erases only.** -/
theorem procedure (loader : Loader) (command : Command) :
    Settles σ (command.procedure loader) := by
  have hsay : ∀ text, Settles σ (say text) := fun text => of_prompt (common_prompt.only_say text)
  have hprompt : command.erases = false → Settles σ (command.procedure loader) := by
    intro herases
    refine of_prompt (common_prompt.only_procedure loader (fun h => ?_) fun _ => fun _ => nofun)
    exact Bool.noConfusion (herases.symm.trans h)
  cases command with
  | erase => exact eraseChip.bind fun _ => hsay _
  | eraseSector address =>
    rcases address with _ | address | token
    · exact hprompt rfl
    · exact (eraseSector address).bind fun _ => hsay _
    · exact hprompt rfl
  | transfer purpose file =>
    cases purpose with
    | flash =>
      cases file with
      | none => exact hprompt rfl
      | some file =>
        refine (of_prompt (Purpose.only_notes common_prompt.note _)).bind fun _ => ?_
        cases loader.load file with
        | error fault => exact hsay _
        | ok segments => exact flash segments
    | _ => exact hprompt rfl
  | _ => exact hprompt rfl

end Settles

theorem Session.settled_exchanges (s : Session σ) (loader : Loader) (words : List String) :
    Settled (s.exchanges loader words) := by
  rw [exchanges]
  cases Command.parse words with
  | none => exact .nil
  | some command => exact Settles.procedure loader command _

end

end Debugger

/-! ## The console -/

/-- Between two states of a link there was traffic at a pace, and no time was given. -/
def Tap.Paces {σ : Type} (p : Pacing) (t t' : Tap σ) : Prop :=
  ∃ ops, t'.traffic.toList = t.traffic.toList ++ ops ∧ Paced p [] ops

namespace Tap.Paces

variable {σ : Type} {p : Pacing} {t t₁ t₂ : Tap σ}

theorem refl (p : Pacing) (t : Tap σ) : Paces p t t := ⟨[], (List.append_nil _).symm, .nil⟩

theorem trans (h : Paces p t t₁) (h' : Paces p t₁ t₂) : Paces p t t₂ := by
  obtain ⟨ops, hops, hpaced⟩ := h
  obtain ⟨ops', hops', hpaced'⟩ := h'
  exact ⟨ops ++ ops', by rw [hops', hops, List.append_assoc], hpaced.append hpaced'⟩

end Tap.Paces

namespace Console

open Transfer (Dialogue Port)

section

variable {σ : Type} [Link σ]

/-- The console and the debugger send in the same way. -/
theorem sendBytes_link (s : Debugger.Session σ) (bytes : Bytes) :
    (s.sendBytes bytes).link = (writePaced s.pacing bytes s.link).2 := by
  induction bytes generalizing s with
  | nil => rfl
  | cons b bytes ih =>
    obtain ⟨link, pacing, transcript, log⟩ := s
    simp only [Debugger.Session.sendBytes, Debugger.Session.sendByte, writePaced]
    rcases Link.write link [b] with ⟨fault | count, link⟩
    · rfl
    · cases pacing.charDelay with
      | none => exact ih ⟨link, pacing, transcript, _⟩
      | some micros => exact ih ⟨Link.delay link micros, pacing, transcript, _⟩

theorem writePaced_paces (pacing : Pacing) (bytes : Bytes) (t : Tap σ) :
    t.Paces pacing (writePaced pacing bytes t).2 := by
  let s : Debugger.Session (Tap σ) := ⟨t, pacing, #[], .quiet⟩
  have htraffic := (s.sendBytes_traffic [] bytes).1
  rw [sendBytes_link s] at htraffic
  exact ⟨_, htraffic, .sent ..⟩

namespace TransferPort

theorem accept_pacing {τ : Type} (p : TransferPort τ) (r : Request) :
    (p.accept r).2.pacing = p.pacing := by
  cases r <;> rfl

theorem takeQueued_pacing {τ : Type} (p : TransferPort τ) (arrivals : List Arrival) :
    (p.takeQueued arrivals).2.pacing = p.pacing := by
  induction arrivals generalizing p with
  | nil => rfl
  | cons arrival rest ih =>
    cases arrival with
    | pause => rfl
    | lapse => rfl
    | request r =>
      cases hr : r.fault? with
      | none =>
        rw [takeQueued, p.accept_ok hr]
        exact (ih _).trans (p.accept_pacing r)
      | some fault =>
        rw [takeQueued, p.accept_error hr]
        exact p.accept_pacing r

theorem awaitByte_pacing {τ : Type} (p : TransferPort τ) (arrivals : List Arrival) :
    (p.awaitByte arrivals).2.pacing = p.pacing := by
  induction arrivals generalizing p with
  | nil =>
    rw [awaitByte.eq_def]
    cases p.pending <;> rfl
  | cons arrival rest ih =>
    rw [awaitByte.eq_def]
    cases p.pending with
    | cons b pending => rfl
    | nil =>
      cases arrival with
      | pause => exact ih p
      | lapse => rfl
      | request r =>
        cases hr : r.fault? with
        | none =>
          dsimp only
          rw [p.accept_ok hr]
          exact (ih _).trans (p.accept_pacing r)
        | some fault =>
          dsimp only
          rw [p.accept_error hr]
          exact p.accept_pacing r

/-- A piece of a transfer is written at the pace of the link. -/
theorem write_paces (p : TransferPort (Tap σ)) (bytes : Bytes) :
    (p.write bytes).2.pacing = p.pacing ∧ p.link.Paces p.pacing (p.write bytes).2.link := by
  have hpacing := p.takeQueued_pacing p.inbox.arrivals
  obtain ⟨_, hlink, -, -, -⟩ := p.takeQueued_took p.inbox.arrivals
  rw [write]
  generalize p.takeQueued p.inbox.arrivals = out at hlink hpacing ⊢
  obtain ⟨fault | done, p₁⟩ := out
  · refine ⟨hpacing, ?_⟩
    rw [hlink]
    exact .refl ..
  · obtain ⟨log, hlog⟩ := p₁.remarkAll_eq bytes
    have hwritten := writePaced_paces p₁.pacing bytes p₁.link
    dsimp only at hlink hpacing ⊢
    rw [hlog]
    rw [hlink, hpacing] at hwritten
    rw [hlink, hpacing]
    exact ⟨rfl, hwritten⟩

/-- **A transfer is at the pace of the link**, whatever the protocol says next and wherever it is
given up. -/
theorem run_paces {α : Type} (d : Dialogue α) (p : TransferPort (Tap σ)) :
    (Port.run d p).2.pacing = p.pacing ∧ p.link.Paces p.pacing (Port.run d p).2.link := by
  induction d generalizing p with
  | done a => exact ⟨rfl, .refl ..⟩
  | step intent next ih =>
    cases intent with
    | write bytes =>
      have hwrite := p.write_paces bytes
      simp only [Port.run, Port.write]
      generalize p.write bytes = out at hwrite ⊢
      obtain ⟨fault | done, p₁⟩ := out
      · exact hwrite
      · obtain ⟨hpacing, hpaces⟩ := ih () p₁
        rw [hwrite.1] at hpacing hpaces
        exact ⟨hpacing, hwrite.2.trans hpaces⟩
    | read =>
      have hpacing := p.awaitByte_pacing p.inbox.arrivals
      obtain ⟨_, hlink, -, -, -⟩ := p.awaitByte_took p.inbox.arrivals
      simp only [Port.run, Port.readByte, readByte]
      generalize p.awaitByte p.inbox.arrivals = out at hlink hpacing ⊢
      obtain ⟨fault | b, p₁⟩ := out
      · refine ⟨hpacing, ?_⟩
        rw [hlink]
        exact .refl ..
      · have hrest := ih b p₁
        rw [hlink, hpacing] at hrest
        exact hrest
    | note record => exact ih () (p.note record.level fun _ => record.text)
    | fail failure => exact ⟨rfl, .refl ..⟩

end TransferPort

/-- **Whatever the console does about a request is at the pace of its link.** -/
theorem handle_paces (files : Files) (c : Console (Tap σ)) (r : Request) :
    (c.handle files r).2.pacing = c.pacing ∧ c.link.Paces c.pacing (c.handle files r).2.link := by
  cases r with
  | keys bytes =>
    obtain ⟨link, device, kind, pacing, inbox, events, log⟩ := c
    have hwritten := writePaced_paces pacing bytes link
    simp only [handle]
    generalize writePaced pacing bytes link = out at hwritten ⊢
    obtain ⟨fault | _, link'⟩ := out
    · exact ⟨rfl, hwritten⟩
    · exact ⟨rfl, hwritten⟩
  | incoming bytes => exact ⟨rfl, .refl ..⟩
  | send protocol file =>
    cases hread : files.read file with
    | error fault =>
      rw [handle, transfer, hread]
      exact ⟨rfl, .refl ..⟩
    | ok data =>
      obtain ⟨log, hsend⟩ := c.sendData_eq protocol file data
      have hrun := c.transferPort.run_paces (fileDialogue protocol file data)
      rw [handle_send hread, hsend]
      generalize Port.run (fileDialogue protocol file data) c.transferPort = out at hrun ⊢
      obtain ⟨result, link, pacing, inbox, pending, _ | reason, log'⟩ := out
      · exact hrun
      · exact hrun
  | cancel => exact ⟨rfl, .refl ..⟩
  | closed reason => exact ⟨rfl, .refl ..⟩

theorem runFor_paces (files : Files) (n : Nat) (c : Console (Tap σ)) :
    c.link.Paces c.pacing (runFor files n c).link := by
  induction n generalizing c with
  | zero => exact .refl ..
  | succ n ih =>
    rw [runFor]
    cases nextRequest c.inbox.arrivals with
    | none => exact .refl ..
    | some taken =>
      obtain ⟨r, rest⟩ := taken
      have hturn := handle_paces files { c with inbox.arrivals := rest } r
      dsimp only
      generalize handle files { c with inbox.arrivals := rest } r = out at hturn ⊢
      obtain ⟨_ | _, c'⟩ := out
      · exact hturn.2
      · have hrest := ih c'
        rw [hturn.1] at hrest
        exact hturn.2.trans hrest

end

end Console

/-- **The pace is kept.**  Over any link, every command of the debugger and everything that the
console is asked for, keys and transfers among them, sends bytes one by one, each that is taken
followed at once by the pause due at the speed of the link and none that is refused followed by one.
Without a speed there are no pauses.  The only other waits are the times that the debugger gives to
erases, right after the cycle that completes them. -/
theorem pacing_kept {σ : Type} [Link σ] :
    (∀ (s : Debugger.Session (Tap σ)) (loader : Debugger.Loader) (words : List String),
      ∃ ops, (s.dispatch loader words).link.traffic.toList = s.link.traffic.toList ++ ops ∧
        ops = (s.exchanges loader words).flatMap (Exchange.operations s.pacing) ∧
        s.pacing.Kept ((s.exchanges loader words).filterMap Exchange.settle?) ops ∧
        Debugger.Settled (s.exchanges loader words)) ∧
      ∀ (c : Console (Tap σ)) (files : Files),
        ∃ ops, (c.run files).link.traffic.toList = c.link.traffic.toList ++ ops ∧
          c.pacing.Kept [] ops := by
  refine ⟨fun s loader words => ?_, fun c files => ?_⟩
  · have hpaced := Debugger.paced_exchanges (s.genuine_exchanges loader words) s.pacing
    exact ⟨_, s.dispatch_traffic loader words, rfl, hpaced.kept,
      s.settled_exchanges loader words⟩
  · obtain ⟨ops, hops, hpaced⟩ :=
      Console.runFor_paces files (c.inbox.arrivals.length + 1) (c.emit c.greeting)
    exact ⟨ops, hops, hpaced.kept⟩

end BoardConsole
