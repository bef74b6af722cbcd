/-!
# Transfer protocols

The ways a file can be sent to the target, and their names.
-/

namespace BoardConsole.Transfer

/-- A way to send a file. -/
inductive Protocol
  /-- The bytes as they are. -/
  | ascii
  /-- Blocks of 128 bytes. -/
  | xmodem
  /-- Blocks of 1024 bytes. -/
  | xmodem1k
  /-- A batch of one file with its name and size. -/
  | ymodem
  deriving DecidableEq, Repr

namespace Protocol

/-- The name of a protocol. -/
def name : Protocol → String
  | .ascii => "ascii"
  | .xmodem => "xmodem"
  | .xmodem1k => "xmodem1k"
  | .ymodem => "ymodem"

/-- The name of a protocol in diagnostics. -/
def describe : Protocol → String
  | .ascii => "Ascii"
  | .xmodem => "Xmodem"
  | .xmodem1k => "Xmodem1k"
  | .ymodem => "Ymodem"

/-- The protocol of a name, in either case. -/
def ofName? (text : String) : Option Protocol :=
  match text.toLower with
  | "ascii" => some .ascii
  | "xmodem" => some .xmodem
  | "xmodem1k" => some .xmodem1k
  | "xmodem-1k" => some .xmodem1k
  | "ymodem" => some .ymodem
  | _ => none

/-- What is said about a name that is no protocol's. -/
def unknown (text : String) : String := s!"Unknown protocol: {text}"

end Protocol

end BoardConsole.Transfer
