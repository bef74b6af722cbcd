import BoardConsole.Proofs.Servicing

/-!
# The servicer is fail-stop

The servicer goes on until a key cannot be written or until it is told that nothing more will come
in, by the queue itself or in the middle of a transfer.  Then it says so, once, and that is the last
thing it does.

- `Turn.GoesOn`, `Turn.GivesUp`: the two kinds of turns, the second with all its deeds.
- `Console.handle_turn`: **every turn is of one of the two kinds**, and the servicer knows which.
- `Console.turnsFor_shape`: only the last turn of a run gives up.
- `Console.run_failStop`: **when the servicer quits, and what comes of it**.
-/

namespace BoardConsole.Console

open Transfer (Failure Port)

/-! ## Two kinds of turns -/

namespace Turn

/-- The turn is about keys, and one of them could not be written. -/
def Refused (t : Turn) : Prop :=
  (∃ bytes, t.request = .keys bytes) ∧ ∃ bytes, .operate (.write bytes false) ∈ t.deeds

/-- The servicer goes on after the turn: nothing has happened that it quits for. -/
structure GoesOn (t : Turn) : Prop where
  quits : ∀ reason, .emit (.quit reason) ∉ t.all
  closes : ∀ reason, .take (.closed reason) ∉ t.all
  refuses : ¬ t.Refused

/-- A turn that only shows something. -/
theorem GoesOn.of_emit {r : Request} {event : Event} (hquit : ∀ reason, event ≠ .quit reason)
    (hclosed : ∀ reason, r ≠ .closed reason) : GoesOn ⟨r, [.emit event]⟩ where
  quits reason hmem := hquit reason (by simpa [all, eq_comm] using hmem)
  closes reason hmem := hclosed reason (by simpa [all, eq_comm] using hmem)
  refuses := by
    rintro ⟨-, piece, hpiece⟩
    simp at hpiece

/-- The servicer gives up in the turn. -/
inductive GivesUp (device : String) : Turn → Prop
  /-- A key could not be written. -/
  | refused {bytes piece : Bytes} {ops : List Operation} {fault : Fault}
    (h : .write piece false ∈ ops) :
    GivesUp device ⟨.keys bytes, ops.map .operate
      ++ [.emit (.quit s!"Error writing to {device}: {fault.message}")]⟩
  /-- Nothing more will come in. -/
  | closed (reason : String) :
    GivesUp device ⟨.closed reason, [.emit (.quit s!"Error reading from {device}: {reason}")]⟩
  /-- Nothing more will come in, and a transfer was running. -/
  | cut {protocol : Transfer.Protocol} {file reason : String} {deeds : List Deed} {unread : Bytes}
    (hcalm : Calm deeds) (hquits : ∀ reason, .emit (.quit reason) ∉ deeds) :
    GivesUp device ⟨.send protocol file, deeds
      ++ [.take (.closed reason), .finish (.error (.fault (.io reason))) unread,
        .emit (.line s!"Transfer failed: {reason}"),
        .emit (.quit s!"Error reading from {device}: {reason}")]⟩

end Turn

/-- A request that says that nothing more will come in is not calm. -/
theorem Calm.not_closed {deeds : List Deed} (h : Calm deeds) (reason : String) :
    .take (.closed reason) ∉ deeds := fun hmem => nomatch h _ hmem

/-- Where nothing is shown, no quit is shown. -/
theorem not_emit_of_quiet {deeds : List Deed} (h : deeds.filterMap Deed.event? = []) (event : Event) :
    .emit event ∉ deeds := by
  intro hmem
  have hnone := List.filterMap_eq_nil_iff.mp h _ hmem
  cases hnone

namespace Turn.GivesUp

variable {device : String} {t : Turn} (h : t.GivesUp device)
include h

/-- Quitting is the last deed, and there is no other. -/
theorem all_eq : ∃ before reason, t.all = before ++ [.emit (.quit reason)] ∧
    ∀ reason, .emit (.quit reason) ∉ before := by
  cases h with
  | @refused bytes piece ops fault h =>
    exact ⟨.take (.keys bytes) :: ops.map .operate, _, rfl, fun reason hmem => by simp at hmem⟩
  | closed reason => exact ⟨[.take (.closed reason)], _, rfl, fun reason hmem => by simp at hmem⟩
  | @cut protocol file reason deeds unread hcalm hquits =>
    refine ⟨.take (.send protocol file) :: (deeds ++ [.take (.closed reason),
      .finish (.error (.fault (.io reason))) unread, .emit (.line s!"Transfer failed: {reason}")]),
      s!"Error reading from {device}: {reason}", by simp [Turn.all], fun reason' hmem => ?_⟩
    exact hquits reason' (by simpa using hmem)

/-- It has a cause. -/
theorem cause : t.Refused ∨ ∃ reason, .take (.closed reason) ∈ t.all := by
  cases h with
  | @refused bytes piece ops fault h =>
    exact .inl ⟨⟨bytes, rfl⟩, piece, List.mem_append_left _ (List.mem_map_of_mem h)⟩
  | closed reason => exact .inr ⟨reason, List.mem_cons_self⟩
  | @cut protocol file reason deeds unread hcalm hquits =>
    exact .inr ⟨reason, List.mem_cons_of_mem _ (List.mem_append_right _ List.mem_cons_self)⟩

/-- The reason why nothing more will come in is the one that is shown. -/
theorem shows {reason : String} (hmem : .take (.closed reason) ∈ t.all) :
    .emit (.quit s!"Error reading from {device}: {reason}") ∈ t.all := by
  cases h with
  | refused h => simp [Turn.all] at hmem
  | closed reason' =>
    have hreason : reason = reason' := by simpa [Turn.all] using hmem
    rw [hreason]
    exact List.mem_cons_of_mem _ List.mem_cons_self
  | @cut protocol file reason' deeds unread hcalm hquits =>
    have hreason : reason = reason' := by simpa [Turn.all, hcalm.not_closed] using hmem
    rw [hreason]
    simp [Turn.all]

/-- A transfer that learns it ends there, with this error. -/
theorem cuts {reason : String} (hmem : .take (.closed reason) ∈ t.deeds) :
    ∃ before unread, t.deeds = before ++ [.take (.closed reason),
      .finish (.error (.fault (.io reason))) unread, .emit (.line s!"Transfer failed: {reason}"),
      .emit (.quit s!"Error reading from {device}: {reason}")] := by
  cases h with
  | refused h => simp at hmem
  | closed reason' => simp at hmem
  | @cut protocol file reason' deeds unread hcalm hquits =>
    have hreason : reason = reason' := by simpa [hcalm.not_closed] using hmem
    rw [hreason]
    exact ⟨deeds, unread, rfl⟩

end Turn.GivesUp

/-! ## What a turn is -/

section

variable {σ : Type} [Link σ]

/-- A transfer that learns that nothing more will come in ends there, and only such a transfer keeps
a reason. -/
theorem sendDeeds_shape (c : Console (Tap σ)) (protocol : Transfer.Protocol) (file : String)
    (data : Bytes) :
    ((c.sendData protocol file data).1 = none ∧
        (∀ reason, .emit (.quit reason) ∉ c.sendDeeds protocol file data) ∧
        ∀ reason, .take (.closed reason) ∉ c.sendDeeds protocol file data) ∨
      ∃ reason deeds unread, (c.sendData protocol file data).1 = some reason ∧
        Calm deeds ∧ (∀ reason, .emit (.quit reason) ∉ deeds) ∧
        c.sendDeeds protocol file data = deeds ++ [.take (.closed reason),
          .finish (.error (.fault (.io reason))) unread,
          .emit (.line s!"Transfer failed: {reason}")] := by
  obtain ⟨log, hsend⟩ := c.sendData_eq protocol file data
  have hrun := accounts_run (fileDialogue protocol file data) c.transferPort
  have hquiet := not_emit_of_quiet hrun.quiet
  have hheeds := hrun.heeds
  have hopen : c.transferPort.closed = none := rfl
  rw [hsend, sendDeeds]
  rw [hopen] at hheeds
  generalize Port.run (fileDialogue protocol file data) c.transferPort = out at hheeds ⊢
  obtain ⟨result, p⟩ := out
  generalize dialogueDeeds (fileDialogue protocol file data) c.transferPort = ds at hheeds hquiet ⊢
  generalize p.closed = closed at hheeds ⊢
  -- what the transfer heeded decides whether the port keeps a reason
  cases hheeds with
  | calm hcalm =>
    refine .inl ⟨rfl, fun reason hmem => ?_, fun reason hmem => ?_⟩
    · exact hquiet _ (by simpa using hmem)
    · exact hcalm.not_closed reason (by simpa using hmem)
  | @called ds r fault hcalm hr hf =>
    cases r with
    | closed reason =>
      cases hr
      refine .inr ⟨reason, .emit (.line s!"Sending {file}, size {data.length}...") :: ds, p.pending,
        rfl, ?_, fun reason' hmem => ?_, ?_⟩
      · intro r hmem
        exact hcalm r (by simpa using hmem)
      · exact hquiet (.quit reason') (by simpa using hmem)
      · rw [show result = _ from hf]
        simp [outcome, Failure.message, Fault.message]
    | cancel =>
      refine .inl ⟨rfl, fun reason hmem => ?_, fun reason hmem => ?_⟩
      · exact hquiet (.quit reason) (by simpa using hmem)
      · exact hcalm.not_closed reason (by simpa using hmem)
    | keys bytes => cases hr
    | incoming bytes => cases hr
    | send protocol file => cases hr

/-- **Every turn is of one of the two kinds**, and the servicer goes on after those of the first. -/
theorem handle_turn (files : Files) (c : Console (Tap σ)) (r : Request) :
    ((c.handle files r).1 = true ∧ Turn.GoesOn ⟨r, c.deeds files r⟩) ∨
      (c.handle files r).1 = false ∧ Turn.GivesUp c.device ⟨r, c.deeds files r⟩ := by
  cases r with
  | keys bytes =>
    obtain ⟨link, device, kind, pacing, inbox, events, log⟩ := c
    obtain ⟨ops, hops, hfails⟩ := writePaced_traffic pacing bytes link
    simp only [handle, deeds]
    rw [drop_traffic hops]
    generalize writePaced pacing bytes link = out at hfails ⊢
    obtain ⟨fault | _, link'⟩ := out
    · obtain ⟨piece, hpiece⟩ := hfails.mp ⟨fault, rfl⟩
      exact .inr ⟨rfl, .refused hpiece⟩
    · have hnone : ∀ piece, .write piece false ∉ ops := by
        intro piece hpiece
        obtain ⟨fault, hfault⟩ := hfails.mpr ⟨piece, hpiece⟩
        cases hfault
      refine .inl ⟨rfl, ?_, ?_, ?_⟩
      · simp [Turn.all]
      · simp [Turn.all]
      · rintro ⟨-, piece, hpiece⟩
        exact hnone piece (by simpa using hpiece)
  | incoming bytes => exact .inl ⟨rfl, .of_emit (by simp) (by simp)⟩
  | cancel => exact .inl ⟨rfl, .of_emit (by simp) (by simp)⟩
  | closed reason => exact .inr ⟨rfl, .closed reason⟩
  | send protocol file =>
    cases hread : files.read file with
    | error fault =>
      rw [handle, deeds, transfer, hread]
      exact .inl ⟨rfl, .of_emit (by simp) (by simp)⟩
    | ok data =>
      rw [handle_send hread, deeds_send hread]
      have hshape := c.sendDeeds_shape protocol file data
      generalize c.sendData protocol file data = out at hshape ⊢
      obtain ⟨closed, c'⟩ := out
      rcases hshape with ⟨rfl, hquits, hcloses⟩ | ⟨reason, ds, unread, rfl, hcalm, hquits, hds⟩
      · refine .inl ⟨rfl, fun reason hmem => ?_, fun reason hmem => ?_, ?_⟩
        · exact hquits reason (by simpa [Turn.all] using hmem)
        · exact hcloses reason (by simpa [Turn.all] using hmem)
        · rintro ⟨⟨bytes, hkeys⟩, -⟩
          cases hkeys
      · rw [hds, List.append_assoc]
        exact .inr ⟨rfl, .cut hcalm hquits⟩

/-- Only the last turn gives up. -/
theorem turnsFor_shape (files : Files) (n : Nat) (c : Console (Tap σ)) :
    (∀ t ∈ turnsFor files n c, t.GoesOn) ∨
      ∃ before last, turnsFor files n c = before ++ [last] ∧ (∀ t ∈ before, t.GoesOn) ∧
        last.GivesUp c.device := by
  induction n generalizing c with
  | zero => exact .inl (List.forall_mem_nil _)
  | succ n ih =>
    rw [turnsFor]
    cases nextRequest c.inbox.arrivals with
    | none => exact .inl (List.forall_mem_nil _)
    | some taken =>
      obtain ⟨r, rest⟩ := taken
      dsimp only
      have hturn := handle_turn files { c with inbox.arrivals := rest } r
      have hdevice := (handle_accounts files { c with inbox.arrivals := rest } r).device
      generalize handle files { c with inbox.arrivals := rest } r = out at hturn hdevice ⊢
      obtain ⟨goes, c'⟩ := out
      rcases hturn with ⟨rfl, hgoes⟩ | ⟨rfl, hgives⟩
      · rcases ih c' with hall | ⟨before, last, hturns, hbefore, hlast⟩
        · exact .inl (List.forall_mem_cons.mpr ⟨hgoes, hall⟩)
        · refine .inr ⟨⟨r, _⟩ :: before, last, congrArg (_ :: ·) hturns, ?_, ?_⟩
          · exact List.forall_mem_cons.mpr ⟨hgoes, hbefore⟩
          · rw [← show c'.device = c.device from hdevice]
            exact hlast
      · exact .inr ⟨[], _, rfl, List.forall_mem_nil _, hgives⟩

/-- A servicer that goes on after every turn takes all requests, provided that it may take as many. -/
theorem runFor_requests (files : Files) (n : Nat) (c : Console (Tap σ))
    (hn : c.inbox.requests.length < n) (hgoes : ∀ t ∈ turnsFor files n c, t.GoesOn) :
    (runFor files n c).inbox.requests = [] := by
  induction n generalizing c with
  | zero => exact absurd hn (Nat.not_lt_zero _)
  | succ n ih =>
    rw [turnsFor] at hgoes
    rw [runFor]
    cases hnext : nextRequest c.inbox.arrivals with
    | none => rfl
    | some taken =>
      obtain ⟨r, rest⟩ := taken
      rw [hnext] at hgoes
      dsimp only at hgoes ⊢
      have hturn := handle_turn files { c with inbox.arrivals := rest } r
      have hqueue := (turn_accounts files hnext).queue
      generalize handle files { c with inbox.arrivals := rest } r = out at hturn hqueue hgoes ⊢
      obtain ⟨goes, c'⟩ := out
      rcases hturn with ⟨rfl, -⟩ | ⟨rfl, hgives⟩
      · -- every turn takes at least the request that it is about
        refine ih c' ?_ (List.forall_mem_cons.mp hgoes).2
        have htaken : c.inbox.requests = r :: (_ ++ c'.inbox.requests) := hqueue
        rw [htaken, List.length_cons, List.length_append] at hn
        omega
      · obtain ⟨before, reason, hall, -⟩ := hgives.all_eq
        refine absurd ?_ ((List.forall_mem_cons.mp hgoes).1.quits reason)
        rw [hall]
        exact List.mem_append_right _ List.mem_cons_self

end

/-! ## Runs -/

/-- The servicer whose run has these turns is fail-stop. -/
structure FailStop (device : String) (turns : List Turn) : Prop where
  /-- Quitting is the last thing that is done. -/
  last : ∀ before reason after,
    turns.flatMap Turn.all = before ++ .emit (.quit reason) :: after → after = []
  /-- The servicer quits exactly if a key could not be written or nothing more will come in. -/
  quits_iff : (∃ reason, .emit (.quit reason) ∈ turns.flatMap Turn.all) ↔
    (∃ t ∈ turns, t.Refused) ∨ ∃ reason, .take (.closed reason) ∈ turns.flatMap Turn.all
  /-- Why nothing more will come in is shown. -/
  shows : ∀ reason, .take (.closed reason) ∈ turns.flatMap Turn.all →
    .emit (.quit s!"Error reading from {device}: {reason}") ∈ turns.flatMap Turn.all
  /-- A transfer ends where it learns that nothing more will come in, with the reason for its
  error. -/
  cuts : ∀ t ∈ turns, ∀ reason, .take (.closed reason) ∈ t.deeds →
    ∃ before unread, t.deeds = before ++ [.take (.closed reason),
      .finish (.error (.fault (.io reason))) unread, .emit (.line s!"Transfer failed: {reason}"),
      .emit (.quit s!"Error reading from {device}: {reason}")]

/-- What stands at the end of a list and nowhere before it has nothing after it. -/
theorem eq_nil_of_last {α : Type} {P : α → Prop} {before after xs : List α} {x y : α} (hx : P x)
    (hxs : ∀ z ∈ xs, ¬ P z) (h : xs ++ [y] = before ++ x :: after) : after = [] := by
  rcases after.eq_nil_or_concat with rfl | ⟨init, last, rfl⟩
  · rfl
  · rw [List.concat_eq_append, ← List.cons_append, ← List.append_assoc] at h
    have hinit := (List.append_inj' h rfl).1
    refine absurd hx (hxs x ?_)
    rw [hinit]
    exact List.mem_append_right _ List.mem_cons_self

namespace FailStop

variable {device : String} {turns before : List Turn} {last : Turn}

/-- As long as it goes on, a servicer does not quit. -/
theorem not_quits (h : ∀ t ∈ turns, t.GoesOn) (reason : String) :
    .emit (.quit reason) ∉ turns.flatMap Turn.all := by
  intro hmem
  obtain ⟨t, ht, hmem⟩ := List.mem_flatMap.mp hmem
  exact (h t ht).quits reason hmem

theorem not_closes (h : ∀ t ∈ turns, t.GoesOn) (reason : String) :
    .take (.closed reason) ∉ turns.flatMap Turn.all := by
  intro hmem
  obtain ⟨t, ht, hmem⟩ := List.mem_flatMap.mp hmem
  exact (h t ht).closes reason hmem

/-- A servicer that always goes on. -/
theorem of_goesOn (h : ∀ t ∈ turns, t.GoesOn) : FailStop device turns where
  last before reason after heq := by
    refine absurd ?_ (not_quits h reason)
    rw [heq]
    exact List.mem_append_right _ List.mem_cons_self
  quits_iff := by
    constructor
    · rintro ⟨reason, hmem⟩
      exact absurd hmem (not_quits h reason)
    · rintro (⟨t, ht, hrefused⟩ | ⟨reason, hmem⟩)
      · exact absurd hrefused (h t ht).refuses
      · exact absurd hmem (not_closes h reason)
  shows reason hmem := absurd hmem (not_closes h reason)
  cuts t ht reason hmem := absurd (List.mem_cons_of_mem _ hmem) ((h t ht).closes reason)

/-- A servicer that gives up in its last turn. -/
theorem of_givesUp (h : ∀ t ∈ before, t.GoesOn) (hlast : last.GivesUp device) :
    FailStop device (before ++ [last]) := by
  have hdeeds : (before ++ [last]).flatMap Turn.all = before.flatMap Turn.all ++ last.all := by
    rw [List.flatMap_append, List.flatMap_singleton]
  obtain ⟨xs, quitting, hall, hxs⟩ := hlast.all_eq
  have hquit : ∀ reason, .emit (.quit reason) ∉ before.flatMap Turn.all ++ xs := by
    intro reason hmem
    rcases List.mem_append.mp hmem with hmem | hmem
    · exact not_quits h reason hmem
    · exact hxs reason hmem
  have hclosed : ∀ reason, .take (.closed reason) ∈ before.flatMap Turn.all ++ last.all →
      .take (.closed reason) ∈ last.all := fun reason hmem =>
    (List.mem_append.mp hmem).resolve_left (not_closes h reason)
  refine ⟨?_, ?_, ?_, ?_⟩
  · intro front reason after heq
    rw [hdeeds, hall, ← List.append_assoc] at heq
    refine eq_nil_of_last (P := fun d => ∃ reason, d = .emit (.quit reason)) ⟨reason, rfl⟩ ?_ heq
    rintro z hz ⟨reason', rfl⟩
    exact hquit reason' hz
  · rw [hdeeds]
    refine iff_of_true ⟨quitting, ?_⟩ ?_
    · rw [hall]
      exact List.mem_append_right _ (List.mem_append_right _ List.mem_cons_self)
    · rcases hlast.cause with hrefused | ⟨reason, hmem⟩
      · exact .inl ⟨last, List.mem_append_right _ List.mem_cons_self, hrefused⟩
      · exact .inr ⟨reason, List.mem_append_right _ hmem⟩
  · rw [hdeeds]
    intro reason hmem
    exact List.mem_append_right _ (hlast.shows (hclosed reason hmem))
  · intro t ht reason hmem
    rcases List.mem_append.mp ht with ht | ht
    · exact absurd (List.mem_cons_of_mem _ hmem) ((h t ht).closes reason)
    · rw [List.mem_singleton.mp ht] at hmem ⊢
      exact hlast.cuts hmem

end FailStop

/-- **The servicer is fail-stop.**  What is done in the turns of a run accounts for all that the run
shows, does on the link and takes from the queue.  Quitting is the last of it, so it happens at most
once, and it happens exactly if a key could not be written or if the servicer was told, by the queue
or in a transfer, that nothing more will come in.  A servicer that does not quit takes every
request. -/
theorem run_failStop {σ : Type} [Link σ] (files : Files) (c : Console (Tap σ)) :
    let turns := c.turns files
    let deeds := turns.flatMap Turn.all
    (c.run files).events.toList = c.events.toList ++ c.greeting :: deeds.filterMap Deed.event? ∧
      (c.run files).link.traffic.toList
        = c.link.traffic.toList ++ deeds.filterMap Deed.operation? ∧
      c.inbox.requests = deeds.filterMap Deed.request? ++ (c.run files).inbox.requests ∧
      FailStop c.device turns ∧
      ((∀ reason, .emit (.quit reason) ∉ deeds) → (c.run files).inbox.requests = []) := by
  intro turns deeds
  have haccounts := c.run_accounts files
  have hlength : (c.emit c.greeting).inbox.requests.length < c.inbox.arrivals.length + 1 :=
    Nat.lt_succ_of_le (List.length_filterMap_le ..)
  refine ⟨c.run_events files, haccounts.traffic, haccounts.queue, ?_⟩
  rcases turnsFor_shape files (c.inbox.arrivals.length + 1) (c.emit c.greeting) with
    hgoes | ⟨before, last, hturns, hbefore, hlast⟩
  · exact ⟨.of_goesOn hgoes, fun _ => runFor_requests files _ _ hlength hgoes⟩
  · have hstop : FailStop c.device (before ++ [last]) := .of_givesUp hbefore hlast
    rw [← hturns] at hstop
    refine ⟨hstop, fun hquits => ?_⟩
    obtain ⟨xs, reason, hall, -⟩ := hlast.all_eq
    refine absurd (List.mem_flatMap.mpr ⟨last, ?_, ?_⟩) (hquits reason)
    · show last ∈ turnsFor files _ _
      rw [hturns]
      exact List.mem_append_right _ List.mem_cons_self
    · rw [hall]
      exact List.mem_append_right _ List.mem_cons_self

end BoardConsole.Console
