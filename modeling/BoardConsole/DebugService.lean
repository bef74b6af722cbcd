import BoardConsole.Debugger.Session
import BoardConsole.Link.Device

/-!
# The debug service

Debug commands are executed strictly one after another.  Depending on how the program was started
they go to the monitor on an open link, are turned down, or vanish.
-/

namespace BoardConsole

open Debugger

/-- What debug commands go to. -/
inductive DebugService.Backend (σ : Type)
  /-- The monitor on an open link. -/
  | monitor (link : σ) (pacing : Pacing)
  /-- Nothing usable: every command is turned down. -/
  | null
  /-- The debugger is switched off: commands vanish. -/
  | disabled

/-- The service, and what it has told the user. -/
structure DebugService (σ : Type) where
  /-- Where commands go. -/
  backend : DebugService.Backend σ
  /-- What the user has been told, first to last. -/
  transcript : Array Entry := #[]
  /-- Diagnostics. -/
  log : Log := .quiet

namespace DebugService

variable {σ : Type}

/-- A line told to the user. -/
def say (s : DebugService σ) (text : String) : DebugService σ :=
  { s with transcript := s.transcript.push (.line text) }

/-- A remark left in the log. -/
def note (s : DebugService σ) (level : Log.Level) (text : Unit → String) : DebugService σ :=
  { s with log := s.log.add level text }

/-- The service as a session leaves it. -/
def ofSession (s : Session σ) : DebugService σ := ⟨.monitor s.link s.pacing, s.transcript, s.log⟩

/-- Commands sent to the monitor on a link that has just been opened. -/
def attached [Link σ] (s : DebugService σ) (link : σ) (speed : Nat) : DebugService σ :=
  ofSession (Session.mk link ⟨speed⟩ s.transcript s.log).opened

/-- One command, by its words.  No words are no command. -/
def handle [Link σ] (loader : Loader) (s : DebugService σ) : List String → DebugService σ
  | [] => s
  | name :: args =>
    match s with
    | ⟨.monitor link pacing, transcript, log⟩ =>
      ofSession ((Session.mk link pacing transcript log).dispatch loader (name :: args))
    | ⟨.null, _, _⟩ => s.say s!"Bad command: {name}"
    | ⟨.disabled, _, _⟩ => s.note .debug fun _ =>
      s!"debug interface disabled, dropping {showList Text.quote (name :: args)}"

/-- Commands in order, until there will be no more. -/
def serve [Link σ] (loader : Loader) (s : DebugService σ) (commands : List (List String)) :
    DebugService σ :=
  (commands.foldl (handle loader) s).note .debug fun _ => "debug servicer stopped"

/-- Commands sent to the monitor at a device, if it can be opened; turned down otherwise.  The link
is the one the device gives when it opens. -/
def connect [Link σ] (files : Files) (link : σ) (device : String) (speed : Nat) (log : Log) :
    DebugService σ :=
  let s : DebugService σ := { backend := .null, log := Device.remark files device speed log }
  match Device.connect files device speed with
  | .ok opened =>
    ((s.note .info fun _ =>
      s!"debug link {device} open ({opened.kind.name}, speed {opened.speed})").say
      s!"Connected to debugger at {device}").attached link opened.speed
  | .error fault =>
    ((s.note .warn fun _ => s!"debug device {device} is not usable: {fault.message}").say
      s!"Failed to connect to {device}: {fault.message}").say
      s!"Debug device {device} is not usable!"

/-- The service as the program starts it: switched off, without a device, or at a device. -/
def start [Link σ] (files : Files) (link : σ) (device : Option String) (speed : Nat)
    (disabled : Bool) (log : Log) : DebugService σ :=
  if disabled then { backend := .disabled, log }
  else match device with
    | none => { backend := .null, log }
    | some device => connect files link device speed log

end DebugService

end BoardConsole
