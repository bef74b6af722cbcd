import BoardConsole.Log
import BoardConsole.Numeral.Hex
import BoardConsole.Plan

/-!
# Procedures

What a debug command does is a procedure, a plan whose intents are about the debug link and the
user.  A procedure never learns that something went wrong with the link, so failures cannot change
it; they are the business of whoever carries the intents out.

* `Intent`: one thing a command asks for, and `Intent.Answer`, what it gets.
* `Procedure α`: plans over these intents.
* the wire primitives: numbers, addresses, bytes written and bytes fetched.
-/

namespace BoardConsole.Debugger

/-- What a command tells the user. -/
inductive Entry
  /-- A line that stays. -/
  | line (text : String)
  /-- A line that the next one may replace. -/
  | progress (text : String)
  deriving DecidableEq, Repr

/-- One thing a command asks for. -/
inductive Intent
  /-- Send characters. -/
  | send (text : List Char)
  /-- Receive a byte of two digits. -/
  | reply
  /-- Throw away what has been received and not been asked for. -/
  | drain
  /-- Give the target some microseconds. -/
  | settle (micros : Nat)
  /-- Tell the user. -/
  | tell (entry : Entry)
  /-- Leave a remark in the log. -/
  | note (record : Log.Record)
  deriving DecidableEq, Repr

/-- What an intent gets: the byte received, the number of bytes thrown away, or nothing. -/
def Intent.Answer : Intent → Type
  | .reply => UInt8
  | .drain => Nat
  | _ => Unit

/-- What a command does. -/
abbrev Procedure := Plan Intent.Answer

namespace Procedure

/-- Characters sent. -/
def send (text : List Char) : Procedure Unit := Plan.ask (Intent.send text)

/-- A byte received. -/
def reply : Procedure UInt8 := Plan.ask Intent.reply

/-- Stale bytes thrown away, and their number. -/
def drain : Procedure Nat := Plan.ask Intent.drain

/-- Time given to the target. -/
def settle (micros : Nat) : Procedure Unit := Plan.ask (Intent.settle micros)

/-- A line told to the user. -/
def say (text : String) : Procedure Unit := Plan.ask (Intent.tell (.line text))

/-- Progress told to the user. -/
def progress (text : String) : Procedure Unit := Plan.ask (Intent.tell (.progress text))

/-- A remark left in the log. -/
def note (level : Log.Level) (text : String) : Procedure Unit := Plan.ask (Intent.note ⟨level, text⟩)

/-! ## Wire primitives -/

/-- Number of addresses of a bank. -/
def bankSize : Nat := 0x10000

/-- A number of the given width. -/
def sendHex (value width : Nat) : Procedure Unit := send (Hex.encode value width)

/-- The bank that offsets refer to from now on. -/
def selectBank (bank : Nat) : Procedure Unit := do
  sendHex bank 2
  send [':']

/-- The offset of the next access in the bank. -/
def setOffset (offset : Nat) : Procedure Unit := do
  sendHex offset 4
  send ['#']

/-- The address of the next access. -/
def setAddress (address : Nat) : Procedure Unit := do
  selectBank (address / bankSize)
  setOffset address

/-- A byte stored at the target's pointer. -/
def storeByte (value : UInt8) : Procedure Unit := do
  sendHex value.toNat 2
  send ['!']

/-- A byte stored at an offset of the selected bank. -/
def sendCommand (offset : Nat) (value : UInt8) : Procedure Unit := do
  setOffset offset
  storeByte value

/-- The byte at the target's pointer. -/
def fetchByte : Procedure UInt8 := do
  send ['@']
  reply

/-- Some bytes from the target's pointer on. -/
def fetchBytes : Nat → Procedure Bytes
  | 0 => pure []
  | n + 1 => do
    let b ← fetchByte
    let bs ← fetchBytes n
    pure (b :: bs)

end Procedure

end BoardConsole.Debugger
