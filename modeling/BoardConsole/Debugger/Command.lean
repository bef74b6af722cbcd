import BoardConsole.Numeral.Literal
import BoardConsole.Text.Quoted
import BoardConsole.Bytes

/-!
# Debug commands

What a line typed at the debugger asks for.  The name of a command may be in either case, and
arguments that are empty do not count.  Arguments that are no numbers are kept as they were typed:
saying so is part of executing the command.
-/

namespace BoardConsole.Debugger

/-- A numeric argument. -/
inductive Number
  /-- A number of the width that is asked for. -/
  | valid (value : Nat)
  /-- Anything else, as typed. -/
  | invalid (token : String)
  deriving DecidableEq, Repr

/-- The number of bits of an address. -/
def addressBits : Nat := 24

/-- The number of bits of a byte. -/
def byteBits : Nat := 8

/-- An argument read as an address. -/
def Number.address (token : String) : Number :=
  match Numeral.parse? token.toList addressBits with
  | some value => .valid value
  | none => .invalid token

/-- The bytes that arguments spell up to the first that spells none, and that argument. -/
def leadingBytes : List String → Bytes × Option String
  | [] => ([], none)
  | token :: rest =>
    match Numeral.parse? token.toList byteBits with
    | none => ([], some token)
    | some value =>
      let (bytes, rejected) := leadingBytes rest
      (UInt8.ofNat value :: bytes, rejected)

/-- What is to be written where. -/
structure WriteArgs where
  /-- Address of the first byte. -/
  address : Number
  /-- The bytes. -/
  data : Bytes
  /-- The argument that ended them. -/
  rejected : Option String
  deriving DecidableEq, Repr

/-- What to do with an object file. -/
inductive Purpose
  /-- Write it to RAM. -/
  | program
  /-- Compare it with memory. -/
  | verify
  /-- Erase the flash chip and write it there. -/
  | flash
  /-- Compare it with the flash chip. -/
  | verifyRom
  deriving DecidableEq, Repr

/-- A debug command. -/
inductive Command
  /-- Halt the target. -/
  | stop
  /-- Resume it. -/
  | go
  /-- Reset it. -/
  | reset
  /-- Execute one instruction. -/
  | step
  /-- Halt, reset and resume. -/
  | run
  /-- Show the memory at each address. -/
  | read (addresses : List Number)
  /-- Write bytes; nothing is given without arguments. -/
  | write (args : Option WriteArgs)
  /-- Use an object file. -/
  | transfer (purpose : Purpose) (file : Option String)
  /-- Map the RAM one to one. -/
  | mapRam
  /-- Erase the flash chip. -/
  | erase
  /-- Erase the sector of the flash chip around an address. -/
  | eraseSector (address : Option Number)
  /-- Identify the flash chip. -/
  | chipId
  /-- Discard stale replies. -/
  | resync
  /-- Anything else, by the name as typed. -/
  | unknown (name : String)
  deriving DecidableEq, Repr

namespace Command

/-- The arguments of a write command. -/
def writeArgs : List String → Option WriteArgs
  | [] => none
  | first :: rest =>
    match Number.address first with
    | .invalid token => some ⟨.invalid token, [], none⟩
    | .valid address =>
      let (data, rejected) := leadingBytes rest
      some ⟨.valid address, data, rejected⟩

/-- The command that a name and its arguments ask for. -/
def ofName (name : String) (args : List String) : Command :=
  match name.toLower with
  | "stop" => .stop
  | "cont" => .go
  | "go" => .go
  | "reset" => .reset
  | "step" => .step
  | "run" => .run
  | "read" => .read (args.map Number.address)
  | "write" => .write (writeArgs args)
  | "program" => .transfer .program args.head?
  | "verify" => .transfer .verify args.head?
  | "flash" => .transfer .flash args.head?
  | "verify-rom" => .transfer .verifyRom args.head?
  | "mapram" => .mapRam
  | "erase" => .erase
  | "erase-sector" => .eraseSector (args.head?.map Number.address)
  | "chipid" => .chipId
  | "resync" => .resync
  | _ => .unknown name

/-- The command that the words of a line ask for; an empty line asks for none. -/
def parse : List String → Option Command
  | [] => none
  | name :: args => some (ofName name (args.filter (· ≠ "")))

end Command

/-! ## Commands in diagnostics -/

/-- An optional value in diagnostics. -/
def showOption {α : Type} (render : α → String) : Option α → String
  | none => "None"
  | some a => s!"Some({render a})"

/-- A list in diagnostics. -/
def showList {α : Type} (render : α → String) (xs : List α) : String :=
  "[" ++ ", ".intercalate (xs.map render) ++ "]"

/-- A number in diagnostics. -/
def Number.describe : Number → String
  | .valid value => s!"Valid({value})"
  | .invalid token => s!"Invalid({Text.quote token})"

/-- The arguments of a write command in diagnostics. -/
def WriteArgs.describe (args : WriteArgs) : String :=
  "WriteArgs \x7b address: " ++ args.address.describe
    ++ ", data: " ++ showList (fun b => toString b.toNat) args.data
    ++ ", rejected: " ++ showOption Text.quote args.rejected ++ " \x7d"

/-- A purpose in diagnostics. -/
def Purpose.describe : Purpose → String
  | .program => "Program"
  | .verify => "Verify"
  | .flash => "Flash"
  | .verifyRom => "VerifyRom"

/-- A command in diagnostics. -/
def Command.describe : Command → String
  | .stop => "Stop"
  | .go => "Go"
  | .reset => "Reset"
  | .step => "Step"
  | .run => "Run"
  | .read addresses => s!"Read({showList Number.describe addresses})"
  | .write args => s!"Write({showOption WriteArgs.describe args})"
  | .transfer purpose file => s!"{purpose.describe}({showOption Text.quote file})"
  | .mapRam => "MapRam"
  | .erase => "Erase"
  | .eraseSector address => s!"EraseSector({showOption Number.describe address})"
  | .chipId => "ChipId"
  | .resync => "Resync"
  | .unknown name => s!"Unknown({Text.quote name})"

end BoardConsole.Debugger
