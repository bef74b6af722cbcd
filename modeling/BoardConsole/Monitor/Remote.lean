import BoardConsole.Monitor.Basic

/-!
# A board at the other end of a socket

The peer behind a socket runs the monitor on what it is sent and passes on at once what the monitor
has to say.  It speaks only when it is spoken to: answers that were waiting when the link was opened
come with the first answer to something sent.

* `Monitor.Remote`: the board, and the answers on their way.
* `Monitor.Remote.send`: bytes sent, and everything the board has to say.
-/

namespace BoardConsole

/-- A monitor and the answers that have left it. -/
structure Monitor.Remote where
  /-- The monitor. -/
  monitor : Monitor
  /-- Answers that have left it and have not been read. -/
  arrived : Bytes := []

namespace Monitor.Remote

/-- Bytes sent to the board, after which all its answers are on their way. -/
def send (r : Remote) (bs : Bytes) : Remote :=
  let ⟨monitor, arrived⟩ := r
  let monitor := monitor.receiveAll bs
  ⟨{ monitor with replies := [] }, arrived ++ monitor.replies⟩

/-- Answers taken into a buffer with some room. -/
def take (r : Remote) (room : Nat) : Bytes × Remote :=
  (r.arrived.take room, { r with arrived := r.arrived.drop room })

end Monitor.Remote

instance : Link Monitor.Remote where
  write r bs := (.ok bs.length, r.send bs)
  read r room := let (bs, r) := r.take room; (.ok bs, r)
  readWithin r room _ := let (bs, r) := r.take room; (.ok bs, r)
  delay r _ := r
  remark r := r.monitor.remark
  read_length r room bs h := by cases h; exact List.length_take_le _ _

end BoardConsole
