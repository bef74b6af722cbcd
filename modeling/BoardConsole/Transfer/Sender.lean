import BoardConsole.Link.Basic
import BoardConsole.Log
import BoardConsole.Numeral.Hex
import BoardConsole.Plan
import BoardConsole.Text.Utf8
import BoardConsole.Transfer.Block
import BoardConsole.Transfer.Protocol

/-!
# Sending a file

The sender's side of the transfer protocols, as a plan over a port: bytes written, single bytes
read, remarks, and giving up.  The plan never sees a failing port; whoever carries it out stops
there.

* `Dialogue α`: plans over these intents.
* `sendFile`: the dialogue of a protocol.
-/

namespace BoardConsole.Transfer

/-- Why a file has not been sent. -/
inductive Failure
  /-- The port failed, or the transfer was called off. -/
  | fault (fault : Fault)
  /-- The receiver never accepted a block. -/
  | blockRefused (number : UInt8)
  /-- The receiver never accepted the end of the file. -/
  | endRefused
  /-- The receiver never asked for anything. -/
  | noStart
  deriving DecidableEq, Repr

/-- How often a block or the end of a file is sent. -/
def attempts : Nat := 10

/-- How many bytes may come before the receiver asks for the first block. -/
def patience : Nat := 1024

/-- What is said about a file that has not been sent. -/
def Failure.message : Failure → String
  | .fault f => f.message
  | .blockRefused number => s!"Block {number} not acknowledged after {attempts} attempts"
  | .endRefused => "End of transfer not acknowledged"
  | .noStart => "Receiver did not start"

/-- One thing the sender asks for. -/
inductive Intent
  /-- Send bytes in one piece. -/
  | write (bytes : Bytes)
  /-- Receive a byte. -/
  | read
  /-- Leave a remark in the log. -/
  | note (record : Log.Record)
  /-- Give up. -/
  | fail (failure : Failure)
  deriving DecidableEq, Repr

/-- What an intent gets: the byte received, or nothing.  There is no going on after giving up. -/
def Intent.Answer : Intent → Type
  | .read => UInt8
  | .fail _ => Empty
  | _ => Unit

/-- What the sender does. -/
abbrev Dialogue := Plan Intent.Answer

namespace Dialogue

/-- Bytes sent in one piece. -/
def write (bytes : Bytes) : Dialogue Unit := Plan.ask (Intent.write bytes)

/-- A byte received. -/
def read : Dialogue UInt8 := Plan.ask Intent.read

/-- A remark left in the log. -/
def note (level : Log.Level) (text : String) : Dialogue Unit := Plan.ask (Intent.note ⟨level, text⟩)

/-- No going on. -/
def fail {α : Type} (failure : Failure) : Dialogue α := .step (.fail failure) fun none => none.elim

/-! ## Blocks and acknowledgements -/

/-- The receiver accepts. -/
def ack : UInt8 := 0x06

/-- The receiver asks again, or for the first block with a sum. -/
def nak : UInt8 := 0x15

/-- The receiver calls the transfer off. -/
def cancel : UInt8 := 0x18

/-- The receiver asks for the first block with a cyclic redundancy code. -/
def crcRequest : UInt8 := 0x43

/-- The end of a file. -/
def endOfFile : UInt8 := 0x04

/-- The filler after the end of a file's contents. -/
def fileFiller : UInt8 := 0x1A

/-- A byte in a remark. -/
def showByte (b : UInt8) : String := s!"0x{Hex.lower b.toNat 2}"

/-- The check the receiver asks for, as long as no more than some other bytes come before. -/
def awaitStart : Nat → Dialogue Check
  | 0 => fail .noStart
  | n + 1 => do
    let b ← read
    if b = crcRequest then pure .crc16
    else if b = nak then pure .sum
    else if b = cancel then fail (.fault .cancelled)
    else do
      note .trace s!"ignoring {showByte b} before start"
      awaitStart n

/-- A block sent until the receiver accepts it, with some attempts left. -/
def sendBlock (number : UInt8) (frame : Bytes) : Nat → Dialogue Unit
  | 0 => fail (.blockRefused number)
  | n + 1 => do
    note .trace s!"block {number} attempt {attempts - (n + 1)}"
    write frame
    let b ← read
    if b = ack then pure ()
    else if b = cancel then fail (.fault .cancelled)
    else if b = nak then sendBlock number frame n
    else do
      note .trace s!"unexpected reply {showByte b} to block {number}"
      sendBlock number frame n

/-- The pieces of a file sent as blocks, counted from a number. -/
def sendBlocks (check : Check) (size : BlockSize) : UInt8 → List Bytes → Dialogue Unit
  | _, [] => pure ()
  | number, piece :: rest => do
    sendBlock number (block check size number fileFiller piece) attempts
    sendBlocks check size (number + 1) rest

/-- The contents of a file sent as blocks. -/
def sendContents (check : Check) (size : BlockSize) (data : Bytes) : Dialogue Unit :=
  sendBlocks check size 1 (chunks size.count data)

/-- The end of a file sent until the receiver accepts it, with some attempts left. -/
def sendEnd : Nat → Dialogue Unit
  | 0 => fail .endRefused
  | n + 1 => do
    write [endOfFile]
    let b ← read
    if b = ack then pure ()
    else if b = cancel then fail (.fault .cancelled)
    else sendEnd n

/-- The receiver's first request. -/
def start : Dialogue Check := do
  let check ← awaitStart patience
  note .debug s!"receiver requested {check.name}"
  pure check

/-- A file sent as blocks of one size. -/
def sendBlockwise (size : BlockSize) (data : Bytes) : Dialogue Unit := do
  let check ← start
  sendContents check size data
  sendEnd attempts

/-! ## Batches -/

/-- The payload that announces a file: its name and its size in decimal, each with a zero after
it. -/
def header (name : String) (size : Nat) : Bytes :=
  Utf8.encode name.toList ++ [0] ++ (Nat.toDigits 10 size).map Bytes.ofChar ++ [0]

/-- The size of the block for a payload. -/
def headerSize (payload : Bytes) : BlockSize :=
  if payload.length ≤ BlockSize.short.count then .short else .long

/-- A batch of one file: the file's header, its contents, and an empty header. -/
def sendBatch (name : String) (data : Bytes) : Dialogue Unit := do
  let payload := header name data.length
  let check ← start
  sendBlock 0 (block check (headerSize payload) 0 0 payload) attempts
  let check ← awaitStart patience
  sendContents check .long data
  sendEnd attempts
  let check ← awaitStart patience
  sendBlock 0 (block check .short 0 0 []) attempts

/-- The bytes of a file sent one by one. -/
def sendPlain : Bytes → Dialogue Unit
  | [] => pure ()
  | b :: bs => do
    write [b]
    sendPlain bs

/-- A file sent by a protocol. -/
def sendFile (protocol : Protocol) (name : String) (data : Bytes) : Dialogue Unit := do
  note .info s!"sending {name} ({data.length} bytes) via {protocol.name}"
  match protocol with
  | .ascii => sendPlain data
  | .xmodem => sendBlockwise .short data
  | .xmodem1k => sendBlockwise .long data
  | .ymodem => sendBatch name data

end Dialogue

end BoardConsole.Transfer
