import BoardConsole.Interface.Screen
import BoardConsole.Proofs.Acts

/-!
# How the program ends

Inputs come in bursts.  Within a burst the end is noticed after every input but the first one, so an
input that stands first in its burst and asks for the end is followed by one more, if there is one,
whose own reason counts instead.  In every other place the first input that asks for the end is the
last one handled, and its reason is the one that counts.

- `App.asksEnd`: the inputs that ask for the end, and their reasons.
- `App.handle_quit`: what one input does to the reason.
- `App.Alike`: states that differ in rings of the bell alone, and so do not differ for inputs.
- `App.handleBurst_of_asks`: how far a burst is handled.
- `App.run_ends`: **how a run ends**.
-/

namespace BoardConsole

/-! ## The bell -/

namespace Terminal

namespace Grid

/-- The grid without rings of the bell. -/
def silent (g : Grid) : Grid := { g with bells := 0 }

theorem writeChar_silent (g : Grid) (char : Char) :
    (g.silent.writeChar char).silent = (g.writeChar char).silent := by
  unfold writeChar
  dsimp only
  by_cases hcol : g.col + 1 < g.cols
  · have hcol' : g.silent.col + 1 < g.silent.cols := hcol
    rw [if_pos hcol, if_pos hcol']
    rfl
  · have hcol' : ¬ g.silent.col + 1 < g.silent.cols := hcol
    rw [if_neg hcol, if_neg hcol', apply_ite silent, apply_ite silent]
    rfl

theorem scroll_silent (g : Grid) (lines : Int) :
    (g.silent.scroll lines).silent = (g.scroll lines).silent := by
  unfold scroll
  split <;> rfl

theorem apply_silent (g : Grid) (x : Action) : (g.silent.apply x).silent = (g.apply x).silent := by
  cases x with
  | write char => exact g.writeChar_silent char
  | eraseDisplay part => cases part <;> rfl
  | scroll lines => exact g.scroll_silent lines
  | _ => rfl

/-- Rings before some actions make no difference but in the number of rings. -/
theorem applyAll_silent (g : Grid) (actions : List Action) :
    (g.silent.applyAll actions).silent = (g.applyAll actions).silent := by
  induction actions generalizing g with
  | nil => rfl
  | cons x actions ih =>
    calc (g.silent.applyAll (x :: actions)).silent
        = ((g.silent.apply x).silent.applyAll actions).silent := (ih _).symm
      _ = ((g.apply x).silent.applyAll actions).silent := by rw [apply_silent]
      _ = (g.applyAll (x :: actions)).silent := ih _

end Grid

namespace Display

/-- The terminal without rings of the bell. -/
def silent (d : Display) : Display := { d with grid := d.grid.silent }

theorem feed_silent (d : Display) (b : UInt8) :
    (d.silent.feed b).1.silent = (d.feed b).1.silent ∧ (d.silent.feed b).2 = (d.feed b).2 :=
  ⟨congrArg (Display.mk _) (d.grid.applyAll_silent _), rfl⟩

/-- Rings before some bytes make no difference but in the number of rings. -/
theorem feedAll_silent (d : Display) (bytes : Bytes) :
    (d.silent.feedAll bytes).1.silent = (d.feedAll bytes).1.silent ∧
      (d.silent.feedAll bytes).2 = (d.feedAll bytes).2 := by
  induction bytes generalizing d with
  | nil => exact ⟨rfl, rfl⟩
  | cons b bytes ih =>
    obtain ⟨hnext, hreply⟩ := d.feed_silent b
    obtain ⟨hsilent, hreplies⟩ := ih (d.silent.feed b).1
    obtain ⟨hplain, hplainReplies⟩ := ih (d.feed b).1
    rw [hnext] at hsilent hreplies
    rw [feedAll_cons, feedAll_cons, hreply]
    exact ⟨hsilent.symm.trans hplain, congrArg (_ ++ ·) (hreplies.symm.trans hplainReplies)⟩

end Display

end Terminal

namespace Interface

open Terminal (Display)

namespace App

/-- The application without rings of the bell. -/
def silent (a : App) : App := { a with bell := false, console := a.console.silent }

/-- The two differ in rings of the bell alone. -/
def Alike (a b : App) : Prop := a.silent = b.silent

theorem alike_draw (a : App) : a.draw.2.Alike a := rfl

theorem askConsole_silent (a : App) (request : Console.Request) :
    (a.silent.askConsole request).silent = (a.askConsole request).silent := by
  unfold askConsole
  rw [apply_ite silent, apply_ite silent]
  rfl

theorem askDebugger_silent (a : App) (words : List String) :
    (a.silent.askDebugger words).silent = (a.askDebugger words).silent := by
  unfold askDebugger
  rw [apply_ite silent, apply_ite silent]
  rfl

theorem act_silent (a : App) (x : Act) : (a.silent.act x).silent = (a.act x).silent := by
  cases x with
  | askConsole request => exact a.askConsole_silent request
  | askDebugger words => exact a.askDebugger_silent words
  | _ => rfl

theorem actAll_silent (a : App) (acts : List Act) :
    (a.silent.actAll acts).silent = (a.actAll acts).silent := by
  induction acts generalizing a with
  | nil => rfl
  | cons x acts ih =>
    calc (a.silent.actAll (x :: acts)).silent
        = ((a.silent.act x).silent.actAll acts).silent := (ih _).symm
      _ = ((a.act x).silent.actAll acts).silent := by rw [act_silent]
      _ = (a.actAll (x :: acts)).silent := ih _

theorem press_silent (a : App) (k : Key) : (a.silent.press k).silent = (a.press k).silent := by
  have hacts : a.silent.acts k = a.acts k := rfl
  rw [press_acts, press_acts, hacts, actAll_silent]

/-- A function for which rings make no difference keeps applications alike. -/
theorem Alike.map {a b : App} (h : a.Alike b) {f : App → App}
    (hf : ∀ a : App, (f a.silent).silent = (f a).silent) : (f a).Alike (f b) :=
  calc (f a).silent
      = (f a.silent).silent := (hf a).symm
    _ = (f b.silent).silent := by rw [h]
    _ = (f b).silent := hf b

theorem consoleOutput_silent (a : App) (bytes : Bytes) :
    (a.silent.consoleOutput bytes).silent = (a.consoleOutput bytes).silent := by
  have hsilent : a.silent.console = a.console.silent := rfl
  obtain ⟨hconsole, hreplies⟩ := a.console.feedAll_silent bytes
  have hshown : ({ a.silent with console := (a.console.silent.feedAll bytes).1 } : App).Alike
      { a with console := (a.console.feedAll bytes).1 } :=
    congrArg (fun console : Display => ({ a with bell := false, console } : App)) hconsole
  rw [consoleOutput_acts, consoleOutput_acts, hsilent, hreplies]
  exact hshown.map (f := fun a => a.actAll _) fun a => a.actAll_silent _

theorem handle_silent (a : App) (input : Input) :
    (a.silent.handle input).silent = (a.handle input).silent := by
  cases input with
  | event event =>
    cases event with
    | console bytes => exact a.consoleOutput_silent bytes
    | _ => rfl
  | key k => exact a.press_silent k
  | resize cols rows => rfl

/-! ## Inputs that ask for the end -/

/-- The reason that an input gives for the end, if it asks for it. -/
def asksEnd (a : App) : Input → Option String
  | .event (.quit reason) => some reason
  | .key k => if a.ends k then some "" else none
  | _ => none

/-- **The last reason counts.** -/
theorem handle_quit (a : App) (input : Input) :
    (a.handle input).quit = (a.asksEnd input).or a.quit := by
  cases input with
  | event event =>
    cases event with
    | console bytes =>
      show (a.consoleOutput bytes).quit = a.quit
      rw [consoleOutput_acts, actAll_quit, (Act.marks_of_minor (minor_replyActs _)).1]
      rfl
    | _ => rfl
  | key k =>
    show (a.press k).quit = (if a.ends k then some "" else none).or a.quit
    rw [press_quit]
    split <;> rfl
  | resize cols rows => rfl

theorem handle_quit_none {a : App} {input : Input} (hquit : a.quit = none)
    (h : a.asksEnd input = none) : (a.handle input).quit = none := by
  rw [handle_quit, h, hquit, Option.none_or]

theorem handle_quit_isSome {a : App} {input : Input} (h : (a.asksEnd input).isSome = true) :
    (a.handle input).quit.isSome = true := by
  rw [handle_quit, Option.isSome_or, h, Bool.true_or]

/-- The application after some inputs, first to last. -/
def handleAll (a : App) (inputs : List Input) : App := inputs.foldl handle a

/-- None of the inputs asks for the end. -/
def Stays (a : App) : List Input → Prop
  | [] => True
  | input :: rest => a.asksEnd input = none ∧ (a.handle input).Stays rest

theorem handleAll_append (a : App) (before later : List Input) :
    a.handleAll (before ++ later) = (a.handleAll before).handleAll later := List.foldl_append

theorem stays_append {a : App} {before later : List Input} :
    a.Stays (before ++ later) ↔ a.Stays before ∧ (a.handleAll before).Stays later := by
  induction before generalizing a with
  | nil => exact Iff.of_eq (true_and _).symm
  | cons input before ih =>
    show a.asksEnd input = none ∧ (a.handle input).Stays (before ++ later) ↔ _
    rw [ih, ← and_assoc]
    rfl

/-- What does not ask for the end leaves the reason as it is. -/
theorem Stays.quit {a : App} {inputs : List Input} (h : a.Stays inputs) :
    (a.handleAll inputs).quit = a.quit := by
  induction inputs generalizing a with
  | nil => rfl
  | cons input inputs ih =>
    refine (ih h.2).trans ?_
    rw [handle_quit, h.1, Option.none_or]

/-- Either no input asks for the end or there is a first one that does. -/
theorem stays_or_asks (a : App) (inputs : List Input) :
    a.Stays inputs ∨ ∃ before asking later reason, inputs = before ++ asking :: later ∧
      a.Stays before ∧ (a.handleAll before).asksEnd asking = some reason := by
  induction inputs generalizing a with
  | nil => exact .inl trivial
  | cons input inputs ih =>
    cases hasks : a.asksEnd input with
    | some reason => exact .inr ⟨[], input, inputs, reason, rfl, trivial, hasks⟩
    | none =>
      rcases ih (a.handle input) with hstays | ⟨before, asking, later, reason, rfl, hstays, hreason⟩
      · exact .inl ⟨hasks, hstays⟩
      · exact .inr ⟨input :: before, asking, later, reason, rfl, ⟨hasks, hstays⟩, hreason⟩

namespace Alike

variable {a b c : App}

theorem symm (h : a.Alike b) : b.Alike a := Eq.symm h

theorem trans (h : a.Alike b) (h' : b.Alike c) : a.Alike c := Eq.trans h h'

theorem handle (h : a.Alike b) (input : Input) : (a.handle input).Alike (b.handle input) :=
  h.map (f := fun a => a.handle input) fun a => a.handle_silent input

theorem handleAll (h : a.Alike b) (inputs : List Input) :
    (a.handleAll inputs).Alike (b.handleAll inputs) := by
  induction inputs generalizing a b with
  | nil => exact h
  | cons input inputs ih => exact ih (h.handle input)

theorem asksEnd (h : a.Alike b) (input : Input) : a.asksEnd input = b.asksEnd input := by
  have hsame : a.silent.asksEnd input = b.silent.asksEnd input := by rw [h]
  exact hsame

theorem quit (h : a.Alike b) : a.quit = b.quit := by
  have hsame : a.silent.quit = b.silent.quit := by rw [h]
  exact hsame

/-- What has been asked for is taken. -/
theorem stop (h : a.Alike b) :
    ({ a with quit := none } : App).Alike { b with quit := none } := by
  have hsame : ({ a.silent with quit := none } : App) = { b.silent with quit := none } := by rw [h]
  exact hsame

theorem stays (h : a.Alike b) {inputs : List Input} (ha : a.Stays inputs) : b.Stays inputs := by
  induction inputs generalizing a b with
  | nil => trivial
  | cons input inputs ih => exact ⟨(h.asksEnd input).symm.trans ha.1, ih (h.handle input) ha.2⟩

end Alike

/-! ## One burst -/

/-- Inputs none of which asks for the end are all handled. -/
theorem handleUntilQuit_of_stays {a : App} {inputs : List Input} (hquit : a.quit = none)
    (h : a.Stays inputs) : a.handleUntilQuit inputs = a.handleAll inputs := by
  induction inputs generalizing a with
  | nil => rfl
  | cons input inputs ih =>
    have hnone : (a.handle input).quit = none := handle_quit_none hquit h.1
    rw [handleUntilQuit, hnone]
    exact ih hnone h.2

/-- With the end asked for before, one more input is handled. -/
theorem handleUntilQuit_of_quit {a : App} {inputs : List Input} (hquit : a.quit.isSome = true) :
    a.handleUntilQuit inputs = a.handleAll (inputs.take 1) := by
  cases inputs with
  | nil => rfl
  | cons input inputs =>
    have hsome : (a.handle input).quit.isSome = true := by
      rw [handle_quit, Option.isSome_or, hquit, Bool.or_true]
    rw [handleUntilQuit, if_pos hsome]
    rfl

/-- Inputs are handled up to the first that asks for the end. -/
theorem handleUntilQuit_of_asks {a : App} {before later : List Input} {asking : Input}
    (hquit : a.quit = none) (hstays : a.Stays before)
    (hasks : ((a.handleAll before).asksEnd asking).isSome = true) :
    a.handleUntilQuit (before ++ asking :: later) = a.handleAll (before ++ [asking]) := by
  induction before generalizing a with
  | nil =>
    have hsome : (a.handle asking).quit.isSome = true := handle_quit_isSome hasks
    show a.handleUntilQuit (asking :: later) = a.handle asking
    rw [handleUntilQuit, if_pos hsome]
  | cons input before ih =>
    have hnone : (a.handle input).quit = none := handle_quit_none hquit hstays.1
    show a.handleUntilQuit (input :: (before ++ asking :: later)) = _
    rw [handleUntilQuit, hnone]
    exact ih hnone hstays.2 hasks

/-- What a burst still gives after the input that asks for the end: one input if that one stood
first, and nothing otherwise. -/
def overrun (before later : List Input) : List Input := if before = [] then later.take 1 else []

/-- **How far a burst is handled.** -/
theorem handleBurst_of_asks {a : App} {before later : List Input} {asking : Input}
    (hquit : a.quit = none) (hstays : a.Stays before)
    (hasks : ((a.handleAll before).asksEnd asking).isSome = true) :
    a.handleBurst (before ++ asking :: later)
      = (a.handleAll (before ++ [asking])).handleAll (overrun before later) := by
  cases before with
  | nil => exact handleUntilQuit_of_quit (handle_quit_isSome hasks)
  | cons input before =>
    exact handleUntilQuit_of_asks (handle_quit_none hquit hstays.1) hstays.2 hasks

theorem handleBurst_of_stays {a : App} {burst : List Input} (hquit : a.quit = none)
    (h : a.Stays burst) : a.handleBurst burst = a.handleAll burst := by
  cases burst with
  | nil => rfl
  | cons input burst => exact handleUntilQuit_of_stays (handle_quit_none hquit h.1) h.2

/-! ## A run -/

/-- The reason after some inputs, given the reason before them. -/
def lastReason (a : App) (reason : String) : List Input → String
  | [] => reason
  | input :: rest => (a.handle input).lastReason ((a.asksEnd input).getD reason) rest

theorem handleAll_quit {a : App} {reason : String} (h : a.quit = some reason)
    (inputs : List Input) : (a.handleAll inputs).quit = some (a.lastReason reason inputs) := by
  induction inputs generalizing a reason with
  | nil => exact h
  | cons input inputs ih =>
    refine ih ?_
    rw [handle_quit, h]
    cases a.asksEnd input <;> rfl

/-- How a run of bursts ends: with which reason, and, but for rings of the bell, in which state. -/
inductive Ends (a : App) : List (List Input) → String × App → Prop
  /-- No input asks for the end.  All are handled, and there is no reason. -/
  | stays {bursts : List (List Input)} {final : App} (hstays : a.Stays bursts.flatten)
    (hfinal : final.Alike (a.handleAll bursts.flatten)) : Ends a bursts ("", final)
  /-- An input is the first that asks for the end.  It is handled, and behind it nothing but what
  its burst still gives. -/
  | asks {earlier rest : List (List Input)} {before later : List Input} {asking : Input}
    {asked final : App} {reason : String} (hstays : a.Stays (earlier.flatten ++ before))
    (hasks : (a.handleAll (earlier.flatten ++ before)).asksEnd asking = some reason)
    (hasked : asked = a.handleAll (earlier.flatten ++ before ++ [asking]))
    (hfinal : final.Alike { asked.handleAll (overrun before later) with quit := none }) :
    Ends a (earlier ++ (before ++ asking :: later) :: rest)
      (asked.lastReason reason (overrun before later), final)

/-- A burst in which no input asks for the end stands in front of a run. -/
theorem Ends.after {a : App} {burst : List Input} {bursts : List (List Input)}
    {result : String × App} (hburst : a.Stays burst) (h : (a.handleAll burst).Ends bursts result) :
    a.Ends (burst :: bursts) result := by
  cases h with
  | stays hstays hfinal =>
    refine .stays (stays_append.mpr ⟨hburst, hstays⟩) ?_
    rw [List.flatten_cons, handleAll_append]
    exact hfinal
  | @asks earlier rest before later asking asked final reason hstays hasks hasked hfinal =>
    have hflatten : (burst :: earlier).flatten ++ before = burst ++ (earlier.flatten ++ before) := by
      rw [List.flatten_cons, List.append_assoc]
    show a.Ends ((burst :: earlier) ++ (before ++ asking :: later) :: rest) _
    refine .asks ?_ ?_ ?_ hfinal
    · rw [hflatten]
      exact stays_append.mpr ⟨hburst, hstays⟩
    · rw [hflatten, handleAll_append]
      exact hasks
    · rw [hflatten, List.append_assoc, handleAll_append, hasked]

/-- What bursts lead to from an application that is like one in which the end has not been asked
for. -/
theorem runBursts_ends {a b : App} (h : b.Alike a) (hquit : a.quit = none)
    (bursts : List (List Input)) : a.Ends bursts (b.runBursts bursts).2 := by
  induction bursts generalizing a b with
  | nil => exact .stays trivial h
  | cons burst bursts ih =>
    have hnone : b.quit = none := h.quit.trans hquit
    rw [runBursts]
    dsimp only
    rcases a.stays_or_asks burst with hstays | ⟨before, asking, later, reason, rfl, hstays, hasks⟩
    · rw [handleBurst_of_stays hnone (h.symm.stays hstays)]
      have hlike : (b.handleAll burst).Alike (a.handleAll burst) := h.handleAll burst
      have hstill : (a.handleAll burst).quit = none := hstays.quit.trans hquit
      rw [hlike.quit, hstill]
      exact .after hstays (ih ((alike_draw _).trans hlike) hstill)
    · have hasksToo : ((b.handleAll before).asksEnd asking).isSome = true := by
        rw [(h.handleAll before).asksEnd, hasks]
        rfl
      rw [handleBurst_of_asks hnone (h.symm.stays hstays) hasksToo]
      have hlike := (h.handleAll (before ++ [asking])).handleAll (overrun before later)
      have hasked : (a.handleAll (before ++ [asking])).quit = some reason := by
        rw [handleAll_append]
        exact (handle_quit _ _).trans (by rw [hasks, Option.some_or])
      rw [hlike.quit, handleAll_quit hasked]
      show a.Ends ([] ++ (before ++ asking :: later) :: bursts) _
      exact .asks hstays hasks rfl hlike.stop

/-- **How a run ends.**  A run that starts with no end asked for handles all its inputs if none of
them asks for the end.  Otherwise it handles those up to the first that does, and it gives the
reason of that one, except where that input stands first in its burst and is not alone there: then
the next one is handled, too, and its reason counts if it gives one. -/
theorem run_ends (a : App) (hquit : a.quit = none) (bursts : List (List Input)) :
    a.Ends bursts (a.run bursts).2 :=
  runBursts_ends a.alike_draw hquit bursts

/-- Two inputs, neither first in its burst, that ask for the end: the first one wins. -/
theorem run_ends_first :
    (App.start 6 8).quit = none ∧
      let bursts := [[.event (.line "x")], [.resize 6 9, .event (.quit "a"), .event (.quit "b")]]
      (App.start 6 8).Ends bursts ((App.start 6 8).run bursts).2 ∧
        ((App.start 6 8).run bursts).2.1 = "a" :=
  ⟨rfl, run_ends _ rfl _, by decide +kernel⟩

/-- The first two inputs of a burst ask for the end: the second one wins, though the first one
does where each is a burst of its own. -/
theorem run_overrun :
    let first : Input := .event (.quit "a")
    let second : Input := .event (.quit "b")
    (App.start 6 8).asksEnd first = some "a" ∧
      ((App.start 6 8).run [[first], [second]]).2.1 = "a" ∧
      ((App.start 6 8).run [[first, second]]).2.1 = "b" := by
  decide +kernel

end App

end Interface

end BoardConsole
