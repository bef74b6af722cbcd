import BoardConsole.Transfer.Port

/-!
# Conversations

A dialogue meets a port it knows nothing about.  What happens between them is a list of events, and
a dialogue alone decides which lists there are and how each of them ends: it never sees anything
but the answers to its own intents.

- `Recorder`: a port that keeps a record, and is no different otherwise.
- `Dialogue.Happens`: the events that a dialogue can lead to and its result, by recursion on it.
- `Recorder.happens`: **whatever the port, a run is one of these**.
- `Dialogue.Happens.unique`: the events decide the result.
-/

namespace BoardConsole.Transfer

/-- What happens on a port. -/
inductive Event
  /-- Bytes were sent in one piece. -/
  | sent (bytes : Bytes)
  /-- Bytes could not be sent. -/
  | refused (bytes : Bytes) (fault : Fault)
  /-- A byte came in. -/
  | received (b : UInt8)
  /-- No byte came in. -/
  | broken (fault : Fault)
  deriving DecidableEq, Repr

/-! ## Recorders -/

/-- A port with a record of what has happened on it. -/
structure Recorder (π : Type) where
  /-- The port. -/
  port : π
  /-- What has happened, first to last. -/
  events : List Event := []

namespace Recorder

variable {π : Type} [Port π]

instance : Port (Recorder π) where
  readByte p :=
    match Port.readByte p.port with
    | (.error fault, port) => (.error fault, ⟨port, p.events ++ [.broken fault]⟩)
    | (.ok b, port) => (.ok b, ⟨port, p.events ++ [.received b]⟩)
  write p bytes :=
    match Port.write p.port bytes with
    | (.error fault, port) => (.error fault, ⟨port, p.events ++ [.refused bytes fault]⟩)
    | (.ok _, port) => (.ok (), ⟨port, p.events ++ [.sent bytes]⟩)
  note p record := ⟨Port.note p.port record, p.events⟩

end Recorder

/-! ## What a dialogue can lead to -/

namespace Dialogue

variable {α β : Type}

/-- The dialogue can lead to these events and ends with this result then. -/
def Happens : Dialogue α → Except Failure α → List Event → Prop
  | .done a, r, es => r = .ok a ∧ es = []
  | .step (.write bytes) next, r, es =>
    (∃ rest, es = .sent bytes :: rest ∧ Happens (next ()) r rest) ∨
      ∃ fault, es = [.refused bytes fault] ∧ r = .error (.fault fault)
  | .step .read next, r, es =>
    (∃ b rest, es = .received b :: rest ∧ Happens (next b) r rest) ∨
      ∃ fault, es = [.broken fault] ∧ r = .error (.fault fault)
  | .step (.note _) next, r, es => Happens (next ()) r es
  | .step (.fail failure) _, r, es => r = .error failure ∧ es = []

/-- **The events decide the result.** -/
theorem Happens.unique {d : Dialogue α} {r r' : Except Failure α} {es : List Event}
    (h : Happens d r es) (h' : Happens d r' es) : r = r' := by
  induction d generalizing es with
  | done a => exact h.1.trans h'.1.symm
  | step intent next ih =>
    cases intent with
    | write bytes =>
      rcases h with ⟨rest, rfl, h⟩ | ⟨fault, rfl, rfl⟩
      · rcases h' with ⟨rest', heq, h'⟩ | ⟨fault', heq, -⟩
        · cases heq
          exact ih _ h h'
        · cases heq
      · rcases h' with ⟨rest', heq, -⟩ | ⟨fault', heq, rfl⟩
        · cases heq
        · cases heq
          rfl
    | read =>
      rcases h with ⟨b, rest, rfl, h⟩ | ⟨fault, rfl, rfl⟩
      · rcases h' with ⟨b', rest', heq, h'⟩ | ⟨fault', heq, -⟩
        · cases heq
          exact ih _ h h'
        · cases heq
      · rcases h' with ⟨b', rest', heq, -⟩ | ⟨fault', heq, rfl⟩
        · cases heq
        · cases heq
          rfl
    | note record => exact ih _ h h'
    | fail failure => exact h.1.trans h'.1.symm

/-- One dialogue after another happens as the one and then the other, or ends with the first. -/
theorem happens_bind {d : Dialogue α} {f : α → Dialogue β} {r : Except Failure β}
    {es : List Event} :
    Happens (d >>= f) r es ↔
      (∃ failure, r = .error failure ∧ Happens d (.error failure) es) ∨
        ∃ a es₁ es₂, es = es₁ ++ es₂ ∧ Happens d (.ok a) es₁ ∧ Happens (f a) r es₂ := by
  induction d generalizing es with
  | done a =>
    constructor
    · intro h
      exact .inr ⟨a, [], es, rfl, ⟨rfl, rfl⟩, h⟩
    · rintro (⟨failure, -, h⟩ | ⟨a', es₁, es₂, rfl, h, h'⟩)
      · cases h.1
      · obtain ⟨ha, rfl⟩ := h
        cases ha
        exact h'
  | step intent next ih =>
    cases intent with
    | write bytes =>
      constructor
      · rintro (⟨rest, rfl, h⟩ | ⟨fault, rfl, rfl⟩)
        · rcases (ih ()).mp h with ⟨failure, rfl, h₁⟩ | ⟨a, es₁, es₂, rfl, h₁, h₂⟩
          · exact .inl ⟨failure, rfl, .inl ⟨rest, rfl, h₁⟩⟩
          · exact .inr ⟨a, .sent bytes :: es₁, es₂, rfl, .inl ⟨es₁, rfl, h₁⟩, h₂⟩
        · exact .inl ⟨.fault fault, rfl, .inr ⟨fault, rfl, rfl⟩⟩
      · rintro (⟨failure, rfl, h⟩ | ⟨a, es₁, es₂, rfl, h, h'⟩)
        · rcases h with ⟨rest, rfl, h⟩ | ⟨fault, rfl, hr⟩
          · exact .inl ⟨rest, rfl, (ih ()).mpr (.inl ⟨failure, rfl, h⟩)⟩
          · cases hr
            exact .inr ⟨fault, rfl, rfl⟩
        · rcases h with ⟨rest, rfl, h⟩ | ⟨fault, -, hr⟩
          · exact .inl ⟨rest ++ es₂, rfl, (ih ()).mpr (.inr ⟨a, rest, es₂, rfl, h, h'⟩)⟩
          · cases hr
    | read =>
      constructor
      · rintro (⟨b, rest, rfl, h⟩ | ⟨fault, rfl, rfl⟩)
        · rcases (ih b).mp h with ⟨failure, rfl, h₁⟩ | ⟨a, es₁, es₂, rfl, h₁, h₂⟩
          · exact .inl ⟨failure, rfl, .inl ⟨b, rest, rfl, h₁⟩⟩
          · exact .inr ⟨a, .received b :: es₁, es₂, rfl, .inl ⟨b, es₁, rfl, h₁⟩, h₂⟩
        · exact .inl ⟨.fault fault, rfl, .inr ⟨fault, rfl, rfl⟩⟩
      · rintro (⟨failure, rfl, h⟩ | ⟨a, es₁, es₂, rfl, h, h'⟩)
        · rcases h with ⟨b, rest, rfl, h⟩ | ⟨fault, rfl, hr⟩
          · exact .inl ⟨b, rest, rfl, (ih b).mpr (.inl ⟨failure, rfl, h⟩)⟩
          · cases hr
            exact .inr ⟨fault, rfl, rfl⟩
        · rcases h with ⟨b, rest, rfl, h⟩ | ⟨fault, -, hr⟩
          · exact .inl ⟨b, rest ++ es₂, rfl, (ih b).mpr (.inr ⟨a, rest, es₂, rfl, h, h'⟩)⟩
          · cases hr
    | note record => exact ih ()
    | fail failure =>
      constructor
      · rintro ⟨rfl, rfl⟩
        exact .inl ⟨failure, rfl, rfl, rfl⟩
      · rintro (⟨failure', rfl, hr, rfl⟩ | ⟨a, es₁, es₂, -, ⟨hr, -⟩, -⟩)
        · cases hr
          exact ⟨rfl, rfl⟩
        · cases hr

end Dialogue

/-! ## Runs -/

namespace Recorder

open Dialogue (Happens)

variable {π : Type} [Port π] {α : Type}

/-- **A recorder changes nothing**: the dialogue has the same result and leaves the same port. -/
theorem run_port (d : Dialogue α) (p : Recorder π) :
    Port.run d p.port = ((Port.run d p).1, (Port.run d p).2.port) := by
  induction d generalizing p with
  | done a => rfl
  | step intent next ih =>
    cases intent with
    | write bytes =>
      simp only [Port.run, Port.write]
      rcases Port.write p.port bytes with ⟨fault | _, port⟩
      · rfl
      · exact ih () ⟨port, p.events ++ [.sent bytes]⟩
    | read =>
      simp only [Port.run, Port.readByte]
      rcases Port.readByte p.port with ⟨fault | b, port⟩
      · rfl
      · exact ih b ⟨port, p.events ++ [.received b]⟩
    | note record => exact ih () ⟨Port.note p.port record, p.events⟩
    | fail failure => rfl

/-- **Whatever the port**, a run adds events to the record that the dialogue can lead to, and ends
with the result they have. -/
theorem happens (d : Dialogue α) (p : Recorder π) :
    ∃ es, (Port.run d p).2.events = p.events ++ es ∧ Happens d (Port.run d p).1 es := by
  induction d generalizing p with
  | done a => exact ⟨[], (List.append_nil _).symm, rfl, rfl⟩
  | step intent next ih =>
    cases intent with
    | write bytes =>
      simp only [Port.run, Port.write]
      rcases Port.write p.port bytes with ⟨fault | _, port⟩
      · exact ⟨[.refused bytes fault], rfl, .inr ⟨fault, rfl, rfl⟩⟩
      · obtain ⟨es, hes, h⟩ := ih () ⟨port, p.events ++ [.sent bytes]⟩
        exact ⟨.sent bytes :: es, hes.trans (List.append_assoc ..), .inl ⟨es, rfl, h⟩⟩
    | read =>
      simp only [Port.run, Port.readByte]
      rcases Port.readByte p.port with ⟨fault | b, port⟩
      · exact ⟨[.broken fault], rfl, .inr ⟨fault, rfl, rfl⟩⟩
      · obtain ⟨es, hes, h⟩ := ih b ⟨port, p.events ++ [.received b]⟩
        exact ⟨.received b :: es, hes.trans (List.append_assoc ..), .inl ⟨b, es, rfl, h⟩⟩
    | note record => exact ih () ⟨Port.note p.port record, p.events⟩
    | fail failure => exact ⟨[], (List.append_nil _).symm, rfl, rfl⟩

/-- On a new record there is nothing else. -/
theorem happens_new (d : Dialogue α) (p : π) :
    Happens d (Port.run d (⟨p, []⟩ : Recorder π)).1
      (Port.run d (⟨p, []⟩ : Recorder π)).2.events := by
  obtain ⟨es, hes, h⟩ := happens d (⟨p, []⟩ : Recorder π)
  rw [hes]
  exact h

end Recorder

end BoardConsole.Transfer
