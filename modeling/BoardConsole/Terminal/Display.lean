import BoardConsole.Terminal.Interpreter

/-!
# A terminal

An interpreter together with the grid it draws on.
-/

namespace BoardConsole.Terminal

/-- An interpreter and its grid. -/
structure Display where
  /-- The parser's state. -/
  interpreter : Interpreter := {}
  /-- The screen. -/
  grid : Grid
  deriving DecidableEq, Repr

namespace Display

/-- A fresh terminal of a size. -/
def blank (rows cols : Nat) : Display := { grid := .blank rows cols }

/-- A byte from the target, and what the terminal answers. -/
def feed (d : Display) (b : UInt8) : Display × Bytes :=
  let step := d.interpreter.step d.grid.viewport b
  (⟨step.next, d.grid.applyAll step.actions⟩, step.reply)

/-- Bytes from the target, first to last, and all that the terminal answers. -/
def feedAll (d : Display) (bs : Bytes) : Display × Bytes :=
  let (d, replies) := bs.foldl (fun (d, replies) b =>
    let (d, reply) := d.feed b
    (d, replies ++ reply)) (d, (#[] : Array UInt8))
  (d, replies.toList)

@[simp] theorem feedAll_nil (d : Display) : d.feedAll [] = (d, []) := rfl

/-- A terminal and its answers so far after one more byte. -/
def feedNext (p : Display × Array UInt8) (b : UInt8) : Display × Array UInt8 :=
  ((p.1.feed b).1, p.2 ++ (p.1.feed b).2)

theorem feedAll_eq (d : Display) (bs : Bytes) :
    d.feedAll bs = ((bs.foldl feedNext (d, #[])).1, (bs.foldl feedNext (d, #[])).2.toList) := rfl

/-- What has been answered before stands in front and changes nothing else. -/
theorem foldl_feedNext (d : Display) (before : Array UInt8) (bs : Bytes) :
    bs.foldl feedNext (d, before)
      = ((bs.foldl feedNext (d, #[])).1, before ++ (bs.foldl feedNext (d, #[])).2) := by
  induction bs generalizing d before with
  | nil => simp
  | cons b bs ih =>
    rw [List.foldl_cons, List.foldl_cons, feedNext, ih, feedNext,
      ih (d.feed b).1 ((#[] : Array UInt8) ++ (d.feed b).2)]
    refine Prod.ext rfl (Array.toList_inj.mp ?_)
    simp

theorem feedAll_cons (d : Display) (b : UInt8) (bs : Bytes) :
    d.feedAll (b :: bs)
      = (((d.feed b).1.feedAll bs).1, (d.feed b).2 ++ ((d.feed b).1.feedAll bs).2) := by
  rw [feedAll_eq, feedAll_eq, List.foldl_cons, feedNext, foldl_feedNext]
  simp

/-- One byte and then others, with what each of them leads to known. -/
theorem feedAll_cons_of {d₁ d₂ d₃ : Display} {b : UInt8} {bs r rs : Bytes}
    (hb : d₁.feed b = (d₂, r)) (hbs : d₂.feedAll bs = (d₃, rs)) :
    d₁.feedAll (b :: bs) = (d₃, r ++ rs) := by
  rw [feedAll_cons, hb, hbs]

theorem feedAll_append (d : Display) (bs cs : Bytes) :
    d.feedAll (bs ++ cs)
      = (((d.feedAll bs).1.feedAll cs).1, (d.feedAll bs).2 ++ ((d.feedAll bs).1.feedAll cs).2) := by
  induction bs generalizing d with
  | nil => simp
  | cons b bs ih => simp only [List.cons_append, feedAll_cons, ih, List.append_assoc]

/-- What bytes from the target give reason to remark. -/
def remark (d : Display) (bs : Bytes) (log : Log) : Log :=
  (bs.foldl (fun (d, log) b => ((d.feed b).1, d.interpreter.remark b log)) (d, log)).2

end Display

end BoardConsole.Terminal
