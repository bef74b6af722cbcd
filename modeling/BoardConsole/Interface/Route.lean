import BoardConsole.Text.Blank
import BoardConsole.Text.Words
import BoardConsole.Transfer.Protocol

/-!
# Routing of command lines

Where a line goes that has been submitted: a few commands are the interface's own, the rest is for
the debugger.
-/

namespace BoardConsole.Interface

open Transfer (Protocol)

/-- What a submitted line does. -/
inductive Route
  /-- Nothing. -/
  | nothing
  /-- The program ends. -/
  | quit
  /-- The keys are explained. -/
  | help
  /-- A file is sent over the console link. -/
  | send (protocol : Protocol) (file : String)
  /-- The running transfer is called off. -/
  | cancel
  /-- The words go to the debugger. -/
  | debug (words : List String)
  /-- The user is told what is wrong. -/
  | error (message : String)
  deriving DecidableEq, Repr

/-- What is said about a line with an open quotation mark. -/
def openQuote : String := "Command syntax error: missing closing quote!"

/-- The words of a line; a line that begins with a number sign has none. -/
def tokenize (line : List Char) : Option (List String) :=
  match Text.trim line with
  | '#' :: _ => some []
  | trimmed => (Text.splitWords trimmed).map (·.map String.ofList)

/-- What a line that names a file to send does, by the words after the first. -/
def Route.ofSend : List String → Route
  | protocol :: file :: _ =>
    match Protocol.ofName? protocol with
    | some protocol => .send protocol file
    | none => .error s!"{Protocol.unknown protocol}!"
  | _ => .error "Usage: send <ascii|xmodem|xmodem1k|ymodem> <file>"

/-- What some words do. -/
def Route.ofWords : List String → Route
  | [] => .nothing
  | name :: args =>
    match name.toLower with
    | "quit" => .quit
    | "help" => .help
    | "cancel" => .cancel
    | "send" => .ofSend args
    | _ => .debug (name :: args)

/-- What a line does. -/
def Route.ofLine (line : List Char) : Route :=
  match tokenize line with
  | none => .error openQuote
  | some words => .ofWords words

end BoardConsole.Interface
