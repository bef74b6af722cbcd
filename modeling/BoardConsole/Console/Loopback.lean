import BoardConsole.Console.Request
import BoardConsole.Numeral.Hex

/-!
# The console without a link

In test mode there is no target: what is typed comes back, with the name of every key.
-/

namespace BoardConsole.Console

/-- The printable name of a byte that was typed. -/
def keyName (b : UInt8) : String :=
  if b < 0x20 then s!"^{Bytes.toChar (b + 0x40)}"
  else if b = 0x7F then "^?"
  else if b < 0x7F then (Bytes.toChar b).toString
  else s!"\\x{Hex.byte b}"

/-- What a request gives to show without a link. -/
def loopback : Request → List Event
  | .keys bytes =>
    bytes.flatMap fun b => [.console [b], .progress s!"<{keyName b},{b.toNat}>"]
  | .send _ _ => [.line "No console link in test mode!"]
  | .cancel => [.line "No console link in test mode!"]
  | .incoming _ => []
  | .closed _ => []

end BoardConsole.Console
