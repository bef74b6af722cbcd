import BoardConsole.Bytes
import BoardConsole.Log

/-!
# Byte links

Whatever the program talks through is reduced to a link: it takes bytes, gives bytes, and lets
time pass.  A link is a state with these operations; pacing and protocols are layered on top.

* `Fault`: why an operation failed.
* `Link σ`: the operations on states of type `σ`.
-/

namespace BoardConsole

/-- Why an operation on a link failed. -/
inductive Fault
  /-- The system refused it. -/
  | io (message : String)
  /-- No data came in time. -/
  | timeout
  /-- The user called it off. -/
  | cancelled
  deriving DecidableEq, Repr

/-- What is said about a fault. -/
def Fault.message : Fault → String
  | .io message => message
  | .timeout => "timed out waiting for data"
  | .cancelled => "Transfer cancelled!"

/-- States that bytes can be sent to and received from. -/
class Link (σ : Type) where
  /-- Bytes sent in one piece; the answer is how many were taken. -/
  write : σ → Bytes → Except Fault Nat × σ
  /-- Bytes received into a buffer with some room, as soon as there are any.  No bytes stand for a
  time without data. -/
  read : σ → Nat → Except Fault Bytes × σ
  /-- Bytes received into a buffer with some room, within some milliseconds. -/
  readWithin : σ → Nat → Nat → Except Fault Bytes × σ
  /-- Some microseconds of waiting. -/
  delay : σ → Nat → σ
  /-- What the link remarks about bytes sent to it. -/
  remark : σ → Bytes → Log → Log := fun _ _ log => log
  /-- A buffer is never overrun. -/
  read_length : ∀ (s : σ) (room : Nat) (bs : Bytes), (read s room).1 = .ok bs → bs.length ≤ room

end BoardConsole
