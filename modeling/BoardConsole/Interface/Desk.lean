import BoardConsole.Console.Loopback
import BoardConsole.DebugService
import BoardConsole.Interface.Screen
import BoardConsole.Link.Script
import BoardConsole.Options

/-!
# The program without a target

In test mode everything happens at the desk: what the application asks of the console comes back
from the loopback, what it asks of the debugger goes to a service without a link, and both answer
at once.

* `Desk`: the application and its debug service.
* `Desk.type`: a character typed, and what is sent to the terminal.
-/

namespace BoardConsole.Interface

open Console (Event)

/-- An application without a target. -/
structure Desk where
  /-- The application. -/
  app : App
  /-- What debug commands go to. -/
  debugger : DebugService Script

namespace Desk

/-- What the console shows at first. -/
def opening (layout : Layout) : String :=
  s!"nico v0.1.0\r\n*** Test Mode ***\r\n[console {layout.cols}x{layout.consoleRows}]\r\n[debug {layout.cols}x{layout.debugRows}]\r\n"

/-- What a line in a transcript is for the application. -/
def eventOf : Debugger.Entry → Event
  | .line text => .line text
  | .progress text => .progress text

/-- Events handled one after another. -/
def deliver (a : App) (events : List Event) : App := events.foldl (fun a e => a.handle (.event e)) a

/-- What has been asked for answered. -/
def answer (d : Desk) : Desk :=
  let debugger := d.app.commands.toList.foldl (DebugService.handle (.ofFiles .usual)) d.debugger
  let events := d.app.requests.toList.flatMap Console.loopback
    ++ debugger.transcript.toList.map eventOf
  { app := deliver { d.app with requests := #[], commands := #[] } events
    debugger := { debugger with transcript := #[] } }

/-- The desk at the start, as the options ask for, and what is sent to the terminal. -/
def start (options : Options) (cols rows : Nat) : List Char × Desk :=
  let app := App.start cols rows
  let debugger := DebugService.start .usual ({} : Script) options.debug options.debugSpeed
    options.noDebug .quiet
  let d := answer { app := deliver app [.console (Utf8.encode (opening app.layout).toList)], debugger }
  let (drawn, app) := d.app.draw
  (App.enterScreen ++ drawn, { d with app })

/-- A character typed, and what is sent to the terminal. -/
def type (d : Desk) (c : Char) : List Char × Desk :=
  let d := answer { d with app := d.app.handle (.key (.ofChar c)) }
  let (drawn, app) := d.app.draw
  (drawn, { d with app })

end Desk

end BoardConsole.Interface
