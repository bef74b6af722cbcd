/-!
# Pacing

The target's receiver has almost no buffer, so every character sent is followed by about the time
it takes to clock it out: a start bit, eight data bits and a stop bit at the speed of the link.
-/

namespace BoardConsole

/-- How fast characters may follow each other. -/
structure Pacing where
  /-- Speed of the link in bits per second; zero for links that need no pacing. -/
  speed : Nat
  deriving DecidableEq, Repr

namespace Pacing

/-- No pacing, for sockets and emulators. -/
def unpaced : Pacing := ⟨0⟩

/-- Bit times per character. -/
def bitsPerChar : Nat := 10

/-- The pause after each character in microseconds, if there is one. -/
def charDelay (p : Pacing) : Option Nat :=
  if p.speed = 0 then none else some (bitsPerChar * 1000000 / p.speed)

end Pacing

end BoardConsole
