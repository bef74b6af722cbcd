import BoardConsole.Console.Request
import BoardConsole.Interface.CommandLine
import BoardConsole.Interface.DebugPane
import BoardConsole.Interface.Key
import BoardConsole.Interface.Layout
import BoardConsole.Interface.Route
import BoardConsole.Terminal.Display

/-!
# The application

The state behind the screen: the console terminal, the debug pane, the command line, and what has
been asked of the console and the debugger.  Everything happens in response to an input.

| key | action |
|-----|--------|
| F1 | help |
| F2, alt and tab | typing goes to the other pane |
| F10 | quit |
| control and `]`, then tab, c, d, h, q | other pane, clear console, clear debug pane, help, quit |
| the same key twice | that control character for the target |
| alt and s, g, r, space, grave accent | stop, cont, run, step, reset |

* `App.handle`: one input.
* `App.remark`: what it gives reason to remark.
-/

namespace BoardConsole.Interface

open Terminal (Display Grid)
open Console (Event Request)

/-- What keys are for. -/
inductive Focus
  /-- The target's console. -/
  | console
  /-- The command line. -/
  | command
  deriving DecidableEq, Repr

/-- The other pane. -/
def Focus.other : Focus → Focus
  | .console => .command
  | .command => .console

/-- Something that happens to the application. -/
inductive Input
  /-- There is something to show. -/
  | event (event : Event)
  /-- A key was pressed. -/
  | key (key : Key)
  /-- The screen has another size. -/
  | resize (cols rows : Nat)
  deriving DecidableEq, Repr

/-- The state of the application. -/
structure App where
  /-- How the screen is shared. -/
  layout : Layout
  /-- The console terminal. -/
  console : Display
  /-- The debug pane. -/
  debug : Grid
  /-- The command line. -/
  command : CommandLine := {}
  /-- What keys are for. -/
  focus : Focus := .console
  /-- Whether the next key is a command. -/
  awaitsCommand : Bool := false
  /-- Whether the bell is to be rung for the application. -/
  bell : Bool := false
  /-- Why the program is to end, once it is. -/
  quit : Option String := none
  /-- Whether anyone takes requests for the console. -/
  consoleOpen : Bool := true
  /-- Whether anyone takes commands for the debugger. -/
  debugOpen : Bool := true
  /-- What the console has been asked for, first to last. -/
  requests : Array Request := #[]
  /-- What the debugger has been asked for, first to last. -/
  commands : Array (List String) := #[]
  deriving DecidableEq, Repr

namespace App

/-- The application on a screen of a size. -/
def start (cols rows : Nat) : App :=
  let layout := Layout.ofSize rows cols
  { layout
    console := .blank layout.consoleRows layout.cols
    debug := .blank layout.debugRows layout.cols }

/-! ## What is shown and asked for -/

/-- A line in the debug pane. -/
def say (a : App) (text : List Char) : App := { a with debug := DebugPane.line a.debug text }

/-- The console asked for something. -/
def askConsole (a : App) (request : Request) : App :=
  if a.consoleOpen then { a with requests := a.requests.push request }
  else a.say "Console is not available!".toList

/-- The debugger asked for something. -/
def askDebugger (a : App) (words : List String) : App :=
  if a.debugOpen then { a with commands := a.commands.push words }
  else a.say "Debug interface is not available!".toList

/-- The explanation of the keys. -/
def helpLines : List String :=
  [ "Help: F1=help; F2 or alt+tab=swap console/debug; F10=quit, ^]=command"
  , "  commands: tab=swap, [c]lear console, clear [d]ebug, [h]elp, [q]uit"
  , "  alt+s=stop, alt+g=cont, alt+r=run, alt+space=step, alt+\x60=reset" ]

/-- The keys explained. -/
def help (a : App) : App := helpLines.foldl (fun a text => a.say text.toList) a

/-- Keys for the other pane from now on. -/
def swapFocus (a : App) : App := { a with focus := a.focus.other }

/-- The end of the program asked for, without a reason. -/
def leave (a : App) : App := { a with quit := some "" }

/-- The debug pane cleared. -/
def clearDebug (a : App) : App := { a with debug := clearGrid a.debug }

/-- The console cleared. -/
def clearConsole (a : App) : App := { a with console.grid := clearGrid a.console.grid }

/-- The command line after something was done to it. -/
def edit (a : App) (f : CommandLine → CommandLine) : App := { a with command := f a.command }

/-- Bytes from the target, and what the terminal answers. -/
def consoleOutput (a : App) (bytes : Bytes) : App :=
  let (console, replies) := a.console.feedAll bytes
  let a := { a with console }
  if replies.isEmpty then a else a.askConsole (.keys replies)

/-- Another size of the screen. -/
def resize (a : App) (cols rows : Nat) : App :=
  let layout := Layout.ofSize rows cols
  { a with
    layout
    console.grid := a.console.grid.resize layout.consoleRows layout.cols
    debug := a.debug.resize layout.debugRows layout.cols }

/-! ## Keys -/

/-- A key after the one that announces a command. -/
def commandKey (a : App) (k : Key) : App :=
  if k.isCommand then
    match a.focus with
    | .console => a.askConsole (.keys [0x1D])
    | .command => a
  else match k.code with
    | .tab => a.swapFocus
    | .char 'c' | .char 'C' => a.clearConsole
    | .char 'd' | .char 'D' => a.clearDebug
    | .char 'h' | .char 'H' => a.help
    | .char 'q' | .char 'Q' => a.leave
    | .esc => a
    | _ => { a with bell := true }

/-- A key for the target. -/
def consoleKey (a : App) (k : Key) : App :=
  match k.bytes? with
  | none => a
  | some bytes =>
    if k.alt then
      let a := match k.code with
        | .char c => a.say ("[Alt+".toList ++ [c, ']'])
        | _ => a
      a.askConsole (.keys (0x1B :: bytes))
    else a.askConsole (.keys bytes)

/-- The command line sent to the target. -/
def yank (a : App) : App := a.askConsole (.keys (Utf8.encode a.command.text))

/-- The command line emptied. -/
def dropCommand (a : App) : App := a.edit fun _ => {}

/-- The command line sent to the target and emptied. -/
def yankAndDrop (a : App) : App := a.dropCommand.askConsole (.keys (Utf8.encode a.command.text))

/-- What a submitted line does. -/
def follow (a : App) : Route → App
  | .nothing => a
  | .quit => a.leave
  | .help => a.help
  | .send protocol file => a.askConsole (.send protocol file)
  | .cancel => a.askConsole .cancel
  | .debug words => a.askDebugger words
  | .error message => a.say message.toList

/-- The command line submitted. -/
def submit (a : App) : App :=
  let line := Text.trim a.command.text
  let a := a.dropCommand
  if line.isEmpty then a
  else (a.say ("> ".toList ++ line)).follow (Route.ofLine line)

/-- A character typed together with control on the command line. -/
def controlKey (a : App) (c : Char) : App :=
  match c.toLower with
  | 'a' => a.edit .home
  | 'b' => a.edit .left
  | 'd' => a.edit .delete
  | 'e' => a.edit .toEnd
  | 'f' => a.edit .right
  | 'h' => a.edit .backspace
  | 'k' => a.edit .killRight
  | 'l' => a.clearDebug
  | 'x' => a.edit .clear
  | 'y' => a.yankAndDrop
  | other => a.say ['[', '^', other.toUpper, ']']

/-- A character typed together with alt on the command line, if that means something. -/
def altKey? (a : App) (c : Char) : Option App :=
  match c with
  | 'b' => some (a.edit .wordLeft)
  | 'f' => some (a.edit .wordRight)
  | 'y' => some a.yank
  | _ => none

/-- A character typed on the command line. -/
def typeKey (a : App) (k : Key) (c : Char) : App :=
  match if k.alt then a.altKey? c else none with
  | some a => a
  | none =>
    if k.control then a.controlKey c
    else if k.alt then a
    else a.edit (·.insert c)

/-- A key for the command line. -/
def lineKey (a : App) (k : Key) : App :=
  match k.code with
  | .char c => a.typeKey k c
  | .backspace => a.edit .backspace
  | .delete => a.edit .delete
  | .left => a.edit .left
  | .right => a.edit .right
  | .home => a.edit .home
  | .toEnd => a.edit .toEnd
  | .enter => if k.alt then a.yankAndDrop else a.submit
  | _ => a

/-- What a key does in every pane, if it does anything there. -/
def globalKey? (a : App) (k : Key) : Option App :=
  match k.code with
  | .function 1 => some a.help
  | .function 2 => some a.swapFocus
  | .function 10 => some a.leave
  | .tab => if k.alt then some a.swapFocus else none
  | .char 's' => if k.alt then some (a.askDebugger ["stop"]) else none
  | .char 'g' => if k.alt then some (a.askDebugger ["cont"]) else none
  | .char 'r' => if k.alt then some (a.askDebugger ["run"]) else none
  | .char ' ' => if k.alt then some (a.askDebugger ["step"]) else none
  | .char '\x60' => if k.alt then some (a.askDebugger ["reset"]) else none
  | _ => none

/-- A key. -/
def press (a : App) (k : Key) : App :=
  if a.awaitsCommand then ({ a with awaitsCommand := false } : App).commandKey k
  else if k.isCommand then { a with awaitsCommand := true }
  else match a.globalKey? k with
    | some a => a
    | none =>
      match a.focus with
      | .console => a.consoleKey k
      | .command => a.lineKey k

/-! ## Inputs -/

/-- One input. -/
def handle (a : App) : Input → App
  | .event (.console bytes) => a.consoleOutput bytes
  | .event (.line text) => a.say text.toList
  | .event (.progress text) => { a with debug := DebugPane.progress a.debug text.toList }
  | .event (.quit reason) => { a with quit := some reason }
  | .key k => a.press k
  | .resize cols rows => a.resize cols rows

/-- Whether the bell is to be rung, and the application that has been told so. -/
def takeBell (a : App) : Bool × App :=
  (a.bell || a.console.grid.bells ≠ 0,
    { a with bell := false, console.grid.bells := 0 })

/-- Whether a key on the command line has no meaning there. -/
def ignoresLineKey (k : Key) : Bool :=
  match k.code with
  | .char c => k.alt && !k.control && !(c = 'b' || c = 'f' || c = 'y')
  | .backspace | .delete | .left | .right | .home | .toEnd | .enter => false
  | _ => true

/-- What a key gives reason to remark. -/
def remarkKey (a : App) (k : Key) (log : Log) : Log :=
  if a.awaitsCommand || k.isCommand || (a.globalKey? k).isSome then log
  else match a.focus with
    | .console =>
      if k.bytes?.isNone then log.add .debug fun _ => s!"no console mapping for {k.describe}"
      else log
    | .command =>
      if ignoresLineKey k then
        log.add .debug fun _ => s!"no command line mapping for {k.code.name}"
      else log

/-- What an input gives reason to remark. -/
def remark (a : App) (input : Input) (log : Log) : Log :=
  match input with
  | .event (.console bytes) => a.console.remark bytes log
  | .key k => a.remarkKey k log
  | _ => log

/-- Several inputs, as long as none of them asks for the end. -/
def handleUntilQuit (a : App) : List Input → App
  | [] => a
  | input :: rest =>
    let a := a.handle input
    if a.quit.isSome then a else a.handleUntilQuit rest

/-- Inputs that have come together.  The end that the first one asks for is noticed after the
second. -/
def handleBurst (a : App) : List Input → App
  | [] => a
  | input :: rest => (a.handle input).handleUntilQuit rest

/-- What inputs give reason to remark, as long as none of them asks for the end. -/
def remarkUntilQuit (a : App) (log : Log) : List Input → Log
  | [] => log
  | input :: rest =>
    let log := a.remark input log
    let a := a.handle input
    if a.quit.isSome then log else a.remarkUntilQuit log rest

/-- What inputs that have come together give reason to remark. -/
def remarkBurst (a : App) (log : Log) : List Input → Log
  | [] => log
  | input :: rest => (a.handle input).remarkUntilQuit (a.remark input log) rest

end App

end BoardConsole.Interface
