import BoardConsole.Text.Utf8

/-!
# Plain text

Foreign text that is shown to the user must not drive the terminal it is shown on.  Its plain part
is what remains when control sequences are taken out whole, together with all control characters
but tab, line feed, form feed and carriage return.

A control sequence starts with an escape.  Where it ends depends on its kind, which the first
character after the escape tells; one that is not finished takes up all the rest.

* `Sequence.step`: where a character leads, and whether it is kept.
* `plain`: the plain part of a text.
-/

namespace BoardConsole.Text

/-- Where in a control sequence a text stands. -/
inductive Sequence
  /-- Outside. -/
  | outside
  /-- After the escape. -/
  | escape
  /-- In an escape sequence, after an intermediate character. -/
  | designation
  /-- In a control sequence proper, before its final character. -/
  | control
  /-- In a device control string, before its parameters. -/
  | deviceStart
  /-- In the parameters of a device control string. -/
  | deviceParameters
  /-- In a device control string, after an intermediate character. -/
  | deviceIntermediates
  /-- In a string that lasts until its terminator. -/
  | untilTerminator
  /-- In a string that lasts until a bell. -/
  | untilBell
  deriving DecidableEq, Repr

/-- The controls that plain text may hold. -/
def isLayout (c : Char) : Bool := c = '\t' || c = '\n' || c = '\x0c' || c = '\r'

/-- Whether one of the bytes of a character, as it is sent, is a string terminator. -/
def holdsTerminator (c : Char) : Bool := (Utf8.encode [c]).contains 0x9C

namespace Sequence

/-- What the character after an escape starts, or else ends. -/
def opened (c : Char) : Sequence :=
  match c with
  | '[' => control
  | ']' => untilBell
  | 'P' => deviceStart
  | 'X' | '^' | '_' => untilTerminator
  | _ => outside

/-- Where a printable character of ASCII leads, the space included. -/
def advance (s : Sequence) (c : Char) : Sequence :=
  match s with
  | outside => outside
  | escape => if c < '0' then designation else opened c
  | designation => if c < '0' then designation else outside
  | control => if c < '@' then control else outside
  | deviceStart =>
    if c < '0' then deviceIntermediates
    else if c < '@' then deviceParameters
    else untilTerminator
  | deviceParameters =>
    if c < '0' then deviceIntermediates
    else if c < '<' then deviceParameters
    else untilTerminator
  | deviceIntermediates => if c < '0' then deviceIntermediates else untilTerminator
  | untilTerminator => untilTerminator
  | untilBell => untilBell

/-- Whether controls act in spite of the sequence they stand in. -/
def obeysControls (s : Sequence) : Bool :=
  match s with
  | outside | escape | designation | control => true
  | deviceStart | deviceParameters | deviceIntermediates | untilTerminator | untilBell => false

/-- Where a character leads, and whether it is kept.  An escape starts anew anywhere, and cancelling
ends any sequence.  A control that is kept ends the sequence it stands in. -/
def step (s : Sequence) (c : Char) : Bool × Sequence :=
  if c = '\x1b' then (false, escape)
  else if c = '\x18' || c = '\x1a' then (false, outside)
  else if c < ' ' then
    if s.obeysControls && isLayout c then (true, outside)
    else if s = untilBell ∧ c = '\x07' then (false, outside)
    else (false, s)
  else if c < '\x7f' then (s = outside, s.advance c)
  else if c = '\x7f' then (false, s)
  else if s = untilTerminator ∧ holdsTerminator c then (false, outside)
  else (s = outside, s)

/-- The characters kept of a text that starts somewhere in a sequence. -/
def keep : Sequence → List Char → List Char
  | _, [] => []
  | s, c :: cs => match s.step c with
    | (true, next) => c :: keep next cs
    | (false, next) => keep next cs

end Sequence

/-- The plain part of a text. -/
def plain (text : List Char) : List Char := Sequence.outside.keep text

end BoardConsole.Text
