import BoardConsole.Text.Quoted
import BoardConsole.Text.Utf8

/-!
# Keys

What the keyboard reports, and what each key sends to the target.
-/

namespace BoardConsole.Interface

/-- Which key it is. -/
inductive KeyCode
  /-- A character. -/
  | char (c : Char)
  /-- A function key. -/
  | function (number : Nat)
  /-- Return. -/
  | enter
  /-- Backspace. -/
  | backspace
  /-- Tab. -/
  | tab
  /-- Tab with shift. -/
  | backTab
  /-- Escape. -/
  | esc
  /-- Delete. -/
  | delete
  /-- Insert. -/
  | insert
  /-- Cursor up. -/
  | up
  /-- Cursor down. -/
  | down
  /-- Cursor left. -/
  | left
  /-- Cursor right. -/
  | right
  /-- To the start. -/
  | home
  /-- To the end. -/
  | toEnd
  /-- A page up. -/
  | pageUp
  /-- A page down. -/
  | pageDown
  /-- Caps lock. -/
  | capsLock
  /-- No key at all. -/
  | null
  deriving DecidableEq, Repr

/-- The name of a key in diagnostics. -/
def KeyCode.name : KeyCode → String
  | .char c => s!"Char({Text.quoteChar c})"
  | .function number => s!"F({number})"
  | .enter => "Enter"
  | .backspace => "Backspace"
  | .tab => "Tab"
  | .backTab => "BackTab"
  | .esc => "Esc"
  | .delete => "Delete"
  | .insert => "Insert"
  | .up => "Up"
  | .down => "Down"
  | .left => "Left"
  | .right => "Right"
  | .home => "Home"
  | .toEnd => "End"
  | .pageUp => "PageUp"
  | .pageDown => "PageDown"
  | .capsLock => "CapsLock"
  | .null => "Null"

/-- The keys that have a name of their own. -/
def KeyCode.named : List KeyCode :=
  [.enter, .backspace, .tab, .backTab, .esc, .delete, .insert, .up, .down, .left, .right, .home,
    .toEnd, .pageUp, .pageDown, .capsLock, .null]

/-- A key pressed. -/
structure Key where
  /-- Which one. -/
  code : KeyCode
  /-- Whether shift was held. -/
  shift : Bool := false
  /-- Whether control was held. -/
  control : Bool := false
  /-- Whether alt was held. -/
  alt : Bool := false
  deriving DecidableEq, Repr

namespace Key

/-- The modifiers of a key in diagnostics. -/
def modifiers (k : Key) : String :=
  let names := (if k.shift then ["SHIFT"] else []) ++ (if k.control then ["CONTROL"] else [])
    ++ (if k.alt then ["ALT"] else [])
  if names.isEmpty then "0x0" else " | ".intercalate names

/-- A key in diagnostics. -/
def describe (k : Key) : String :=
  "KeyEvent \x7b code: " ++ k.code.name ++ ", modifiers: KeyModifiers(" ++ k.modifiers
    ++ "), kind: Press, state: KeyEventState(0x0) \x7d"

/-- The key that a terminal reports by a character. -/
def ofChar (c : Char) : Key :=
  match c with
  | '\r' | '\n' => { code := .enter }
  | '\t' => { code := .tab }
  | '\x1b' => { code := .esc }
  | '\x7f' => { code := .backspace }
  | '\x00' => { code := .char ' ', control := true }
  | _ =>
    if c.toNat < 0x1B then { code := .char (Char.ofNat (c.toNat + 0x60)), control := true }
    else if c.toNat < 0x20 then { code := .char (Char.ofNat (c.toNat + 0x40)), control := true }
    else { code := .char c }

/-- The byte a character stands for together with control. -/
def controlByte? (c : Char) : Option UInt8 :=
  if c.isAlpha then some (UInt8.ofNat (c.toNat % 0x20))
  else match c with
    | ' ' | '@' | '2' => some 0x00
    | '3' | '[' => some 0x1B
    | '4' | '\\' => some 0x1C
    | '5' | ']' => some 0x1D
    | '6' | '^' => some 0x1E
    | '7' | '_' | '/' => some 0x1F
    | '8' | '?' => some 0x7F
    | _ => none

/-- A control sequence by what comes after its introducer. -/
def sequence (rest : List Char) : Bytes := [0x1B, 0x5B] ++ rest.map Bytes.ofChar

/-- The bytes a key sends to the target, if it sends any. -/
def bytes? (k : Key) : Option Bytes :=
  match k.code with
  | .char c => if k.control then (controlByte? c).map fun b => [b] else some (Utf8.encode [c])
  | .enter => some [0x0D]
  | .backspace => some [0x08]
  | .tab => some [0x09]
  | .esc => some [0x1B]
  | .delete => some [0x7F]
  | .up => some (sequence ['A'])
  | .down => some (sequence ['B'])
  | .right => some (sequence ['C'])
  | .left => some (sequence ['D'])
  | .home => some (sequence ['H'])
  | .toEnd => some (sequence ['F'])
  | .backTab => some (sequence ['Z'])
  | .insert => some (sequence ['2', '~'])
  | .pageUp => some (sequence ['5', '~'])
  | .pageDown => some (sequence ['6', '~'])
  | .function _ => none
  | .capsLock => none
  | .null => none

/-- Whether a key announces a command: the control character 1D, which terminals report in two
ways. -/
def isCommand (k : Key) : Bool := k.control && (k.code = .char ']' || k.code = .char '5')

end Key

end BoardConsole.Interface
