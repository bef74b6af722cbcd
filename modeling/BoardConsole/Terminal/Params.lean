/-!
# Parameters of a control sequence

A sequence carries decimal numbers separated by semicolons.  A number is read digit by digit and
stops growing at the greatest 32-bit value; an empty place is remembered as absent, so that the
command can put its default there; numbers beyond the sixteenth are only counted.
-/

namespace BoardConsole.Terminal

/-- The parameters read so far. -/
structure Params where
  /-- The places that are finished, given or absent. -/
  slots : List (Option Nat) := []
  /-- The number whose digits are being read. -/
  pending : Option Nat := none
  /-- How many numbers did not fit. -/
  dropped : Nat := 0
  deriving DecidableEq, Repr

namespace Params

/-- How many places are kept. -/
def capacity : Nat := 16

/-- The greatest value of a parameter. -/
def greatest : Nat := 0xFFFFFFFF

/-- One more digit of the number being read. -/
def pushDigit (p : Params) (digit : Nat) : Params :=
  { p with pending := some (min (p.pending.getD 0 * 10 + digit) greatest) }

/-- Whether a number is being read. -/
def hasPending (p : Params) : Bool := p.pending.isSome

/-- The end of a place; without digits it is absent. -/
def terminate (p : Params) : Params :=
  if p.slots.length < capacity then
    { p with slots := p.slots ++ [p.pending], pending := none }
  else { p with pending := none, dropped := p.dropped + 1 }

/-- Places with defaults put where they are absent, and added where they are missing. -/
def fill : List (Option Nat) → List Nat → List (Option Nat)
  | slots, [] => slots
  | [], d :: defaults => some d :: fill [] defaults
  | slot :: slots, d :: defaults => some (slot.getD d) :: fill slots defaults

/-- The parameters with defaults for the leading places. -/
def fillDefaults (p : Params) (defaults : List Nat) : Params :=
  { p with slots := (fill p.slots defaults).take capacity }

/-- The value of a place, zero when it is absent. -/
def get (p : Params) (index : Nat) : Nat := (p.slots[index]?.getD none).getD 0

/-- The values that were given, in order. -/
def given (p : Params) : List Nat := p.slots.filterMap id

end Params

end BoardConsole.Terminal
