/-!
# Diagnostic records

A log keeps what the parts of the program remark about their work, as far as its limit lets it.
The text of a record is only made when the record is kept.
-/

namespace BoardConsole

/-- How much a record matters, from most to least. -/
inductive Log.Level
  /-- The program cannot go on. -/
  | error
  /-- Something went wrong. -/
  | warn
  /-- A step of the work. -/
  | info
  /-- A detail of a step. -/
  | debug
  /-- A detail of every byte. -/
  | trace
  deriving DecidableEq, Repr

/-- The name a level has in a record. -/
def Log.Level.name : Log.Level → String
  | .error => "ERROR"
  | .warn => "WARN"
  | .info => "INFO"
  | .debug => "DEBUG"
  | .trace => "TRACE"

/-- Levels by weight, the weightiest least. -/
def Log.Level.rank : Log.Level → Nat
  | .error => 1
  | .warn => 2
  | .info => 3
  | .debug => 4
  | .trace => 5

/-- One remark. -/
structure Log.Record where
  /-- How much it matters. -/
  level : Log.Level
  /-- What it says. -/
  text : String
  deriving DecidableEq, Repr

/-- A record as a line of text. -/
def Log.Record.render (r : Log.Record) : String := s!"{r.level.name} {r.text}"

/-- The records kept so far, and the least level that is kept. -/
structure Log where
  /-- The least weighty level kept; without one nothing is kept. -/
  limit : Option Log.Level := none
  /-- The records, oldest first. -/
  records : Array Log.Record := #[]

namespace Log

/-- A log that keeps nothing. -/
def quiet : Log := {}

/-- A log that keeps every record. -/
def full : Log := { limit := some .trace }

/-- Whether records of a level are kept. -/
def keeps (log : Log) (level : Level) : Bool :=
  match log.limit with
  | none => false
  | some least => level.rank ≤ least.rank

/-- The log with one more remark. -/
def add (log : Log) (level : Level) (text : Unit → String) : Log :=
  if log.keeps level then { log with records := log.records.push ⟨level, text ()⟩ } else log

/-- The log with a finished record. -/
def record (log : Log) (r : Record) : Log := log.add r.level fun _ => r.text

end Log

end BoardConsole
