import BoardConsole.Files
import BoardConsole.Log

/-!
# Devices

The target's ports are sockets or serial devices.  What a path stands for decides how it is opened:
sockets need no pacing, so their speed is zero whatever was asked for.
-/

namespace BoardConsole.Device

/-- What a path refers to. -/
inductive Kind
  /-- A socket. -/
  | socket
  /-- A character device, driven as a serial port. -/
  | serial
  deriving DecidableEq, Repr

/-- The name of a kind in diagnostics. -/
def Kind.name : Kind → String
  | .socket => "Socket"
  | .serial => "CharDevice"

/-- Why a device cannot be opened. -/
inductive OpenFault
  /-- There is nothing at the path. -/
  | notFound (path : String)
  /-- What is there is no port. -/
  | unsupported (path : String)
  /-- The port does not answer. -/
  | connectionFailed (message : String)
  /-- The path cannot be followed. -/
  | io (message : String)
  /-- It cannot be driven as a serial port. -/
  | serial (message : String)
  deriving DecidableEq, Repr

/-- What is said about a device that cannot be opened. -/
def OpenFault.message : OpenFault → String
  | .notFound path => s!"{path}: no such device"
  | .unsupported path => s!"{path} is neither a socket nor a character device"
  | .connectionFailed message => s!"Connection failed: {message}"
  | .io message => s!"I/O error: {message}"
  | .serial message => s!"Serial port error: {message}"

/-- What is at a path. -/
def detect (files : Files) (path : String) : Except OpenFault Kind :=
  match files.find path with
  | .error .missing => .error (.notFound path)
  | .error fault => .error (.io fault.message)
  | .ok .socket => .ok .socket
  | .ok (.device _) => .ok .serial
  | .ok .terminal => .ok .serial
  | .ok .directory => .error (.unsupported path)
  | .ok (.file _) => .error (.unsupported path)

/-- A device that has been opened. -/
structure Opened where
  /-- What it is. -/
  kind : Kind
  /-- Its speed as far as pacing is concerned. -/
  speed : Nat
  deriving DecidableEq, Repr

/-- A device opened at a speed. -/
def connect (files : Files) (path : String) (speed : Nat) : Except OpenFault Opened :=
  match detect files path with
  | .error fault => .error fault
  | .ok .socket => .ok ⟨.socket, 0⟩
  | .ok .serial =>
    match files.find path with
    | .ok (.device refusal) => .error (.serial refusal)
    | _ => .ok ⟨.serial, speed⟩

/-- What opening a device gives reason to remark. -/
def remark (files : Files) (path : String) (speed : Nat) (log : Log) : Log :=
  match detect files path with
  | .error _ => log
  | .ok kind =>
    let log := log.add .debug fun _ => s!"{path} is a {kind.name}"
    match kind, connect files path speed with
    | .socket, _ => log.add .info fun _ => s!"Connecting to socket {path}"
    | .serial, .ok _ => log.add .info fun _ => s!"Opened serial port {path} at {speed} baud"
    | .serial, .error _ => log

end BoardConsole.Device
