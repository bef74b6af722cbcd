import BoardConsole.Log
import BoardConsole.Terminal.Grid
import BoardConsole.Terminal.Params
import BoardConsole.Text.Quoted
import BoardConsole.Bytes

/-!
# The terminal interpreter

A machine with three modes reads the target's byte stream one byte at a time.  It owns the parser's
state only: what a byte does to the screen is the list of actions `step` returns, computed from
the size of the screen and its cursor, together with the bytes the terminal answers.  What it
remarks about a byte is a separate function of the same state, `remark`.

| bytes | effect |
|-------|--------|
| BEL, BS, HT, LF, VT, FF, CR | bell, left, tab stop, down, up, clear, column zero |
| ESC `c` | full reset |
| ESC `[` parameters letter | motion, erasing, inserting, deleting, scrolling, rendition, reports |

After ESC any other byte is written literally, and so is the ESC.
-/

namespace BoardConsole.Terminal

/-- Where the machine stands between two bytes. -/
inductive Mode
  /-- In plain text. -/
  | ground
  /-- After ESC. -/
  | escape
  /-- In the parameters of a control sequence. -/
  | params
  deriving DecidableEq, Repr

/-- The state of the machine. -/
structure Interpreter where
  /-- Where it stands. -/
  mode : Mode := .ground
  /-- The parameters read so far; what an earlier sequence left here has no effect. -/
  params : Params := {}
  /-- The colour chosen for characters. -/
  foreground : Color := .standard
  /-- The colour chosen behind them. -/
  background : Color := .standard
  /-- The saved cursor. -/
  saved : Nat × Nat := (0, 0)
  deriving DecidableEq, Repr

/-- The size of a screen and its cursor. -/
structure Viewport where
  /-- Number of rows. -/
  rows : Nat
  /-- Number of columns. -/
  cols : Nat
  /-- The cursor's row. -/
  row : Nat
  /-- The cursor's column. -/
  col : Nat
  deriving DecidableEq, Repr

/-- What the machine sees of a grid. -/
def Grid.viewport (g : Grid) : Viewport := ⟨g.rows, g.cols, g.row, g.col⟩

/-- What one byte leads to. -/
structure Step where
  /-- The machine after it. -/
  next : Interpreter
  /-- What is done to the screen, in order. -/
  actions : List Action := []
  /-- What the terminal answers. -/
  reply : Bytes := []
  deriving DecidableEq, Repr

/-- A position moved by some distance and kept between zero and the last of `len` positions. -/
def offset (pos : Nat) (delta : Int) (len : Nat) : Nat := min (pos + delta).toNat (len - 1)

namespace Interpreter

/-- A byte of plain text. -/
def ground (it : Interpreter) (v : Viewport) (b : UInt8) : Step :=
  match b with
  | 0x07 => ⟨it, [.bell], []⟩
  | 0x08 => ⟨it, [.move v.row (offset v.col (-1) v.cols)], []⟩
  | 0x09 => ⟨it, [.move v.row (min ((v.col + 8) / 8 * 8) (v.cols - 1))], []⟩
  | 0x0A => ⟨it, [if v.row + 1 < v.rows then .move (v.row + 1) v.col else .scroll 1], []⟩
  | 0x0B => ⟨it, [.move (offset v.row (-1) v.rows) v.col], []⟩
  | 0x0C => ⟨it, [.eraseDisplay .all, .move 0 0], []⟩
  | 0x0D => ⟨it, [.move v.row 0], []⟩
  | 0x1B => ⟨{ it with mode := .escape }, [], []⟩
  | _ => ⟨it, [.write (Bytes.toChar b)], []⟩

/-- No attributes and default colours, in the machine and in the pen. -/
def resetRendition (it : Interpreter) : Interpreter × List Action :=
  ({ it with foreground := .standard, background := .standard },
    [.disable .all, .setColors .standard .standard])

/-- A byte after ESC. -/
def escape (it : Interpreter) (b : UInt8) : Step :=
  match b with
  | 0x5B => ⟨{ it with params := {}, mode := .params }, [], []⟩
  | 0x63 =>
    let (it, actions) := { it with mode := .ground }.resetRendition
    ⟨it, actions ++ [.eraseDisplay .all, .move 0 0], []⟩
  | _ => ⟨{ it with mode := .ground }, [.write '\x1b', .write (Bytes.toChar b)], []⟩

/-- One change of the rendition. -/
def render (it : Interpreter) : Rendition → Interpreter × List Action
  | .reset => it.resetRendition
  | .enable attributes => (it, [.enable attributes])
  | .disable attributes => (it, [.disable attributes])
  | .foreground color => ({ it with foreground := color }, [.setColors color it.background])
  | .background color => ({ it with background := color }, [.setColors it.foreground color])

/-- Changes of the rendition by number, first to last; unknown numbers change nothing. -/
def renderAll (it : Interpreter) : List Nat → Interpreter × List Action
  | [] => (it, [])
  | value :: values =>
    match Rendition.decode? value with
    | none => it.renderAll values
    | some change =>
      let (it, actions) := it.render change
      let (it, more) := it.renderAll values
      (it, actions ++ more)

/-- The defaults of a command's leading parameters. -/
def defaults (command : Char) : List Nat :=
  match command with
  | 'A' | 'B' | 'C' | 'D' | 'E' | 'F' | 'G' | 'L' | 'M' | 'P' | '@' | 'S' | 'T' => [1]
  | 'H' | 'f' => [1, 1]
  | 'J' | 'K' => [0]
  | 'n' => [6]
  | _ => []

/-- The report of a cursor, counted from one. -/
def positionReport (v : Viewport) : Bytes :=
  ([0x1B, 0x5B] ++ (Nat.toDigits 10 (v.row + 1)).map Bytes.ofChar ++ [0x3B]
    ++ (Nat.toDigits 10 (v.col + 1)).map Bytes.ofChar ++ [0x52])

/-- Everything above the cursor's line and left of the cursor made blank. -/
def eraseBefore (v : Viewport) : List Action :=
  (List.range v.row).flatMap (fun r => [.move r 0, .eraseLine .all])
    ++ [.move v.row v.col, .eraseLine .toCursor]

/-- A command whose parameters are complete, defaults included. -/
def execute (it : Interpreter) (v : Viewport) (command : Char) : Step :=
  let n := it.params.get 0
  match command with
  | 'A' => ⟨it, [.move (offset v.row (-n) v.rows) v.col], []⟩
  | 'B' => ⟨it, [.move (offset v.row n v.rows) v.col], []⟩
  | 'C' => ⟨it, [.move v.row (offset v.col n v.cols)], []⟩
  | 'D' => ⟨it, [.move v.row (offset v.col (-n) v.cols)], []⟩
  | 'E' => ⟨it, [.move (offset v.row n v.rows) 0], []⟩
  | 'F' => ⟨it, [.move (offset v.row (-n) v.rows) 0], []⟩
  | 'G' => ⟨it, [.move v.row (offset 0 (n - 1) v.cols)], []⟩
  | 'H' | 'f' =>
    ⟨it, [.move (offset 0 (n - 1) v.rows) (offset 0 (it.params.get 1 - 1) v.cols)], []⟩
  | 'J' =>
    match n with
    | 0 => ⟨it, [.eraseDisplay .toEnd], []⟩
    | 1 => ⟨it, eraseBefore v, []⟩
    | 2 | 3 => ⟨it, [.eraseDisplay .all], []⟩
    | _ => ⟨it, [], []⟩
  | 'K' =>
    match n with
    | 0 => ⟨it, [.eraseLine .toEnd], []⟩
    | 1 => ⟨it, [.eraseLine .toCursor], []⟩
    | 2 => ⟨it, [.eraseLine .all], []⟩
    | _ => ⟨it, [], []⟩
  | 'L' => ⟨it, [.insertLines (min n v.rows)], []⟩
  | 'M' => ⟨it, [.deleteLines (min n v.rows)], []⟩
  | 'P' => ⟨it, List.replicate (min n v.cols) .deleteChar, []⟩
  | '@' => ⟨it, List.replicate (min n v.cols) .insertChar, []⟩
  | 'S' => ⟨it, [.scroll (min n v.rows : Nat)], []⟩
  | 'T' => ⟨it, [.scroll (-(min n v.rows : Nat))], []⟩
  | 'm' =>
    let (it, actions) := it.renderAll it.params.given
    ⟨it, actions, []⟩
  | 'n' =>
    match n with
    | 5 => ⟨it, [], [0x1B, 0x5B, 0x30, 0x6E]⟩
    | 6 => ⟨it, [], positionReport v⟩
    | _ => ⟨it, [], []⟩
  | 'p' => ⟨it, [.disable .reverse], []⟩
  | 'q' => ⟨it, [.enable .reverse], []⟩
  | 's' => ⟨{ it with saved := (v.row, v.col) }, [], []⟩
  | 'u' => ⟨it, [.move (min it.saved.1 (v.rows - 1)) (min it.saved.2 (v.cols - 1))], []⟩
  | _ => ⟨it, [], []⟩

/-- Whether a command is known. -/
def isCommand (command : Char) : Bool :=
  command ∈ ['A', 'B', 'C', 'D', 'E', 'F', 'G', 'H', 'f', 'J', 'K', 'L', 'M', 'P', '@', 'S', 'T',
    'm', 'n', 'p', 'q', 's', 'u']

/-- The parameters at the end of a sequence: a number still being read is finished. -/
def closeParams (p : Params) : Params := if p.hasPending then p.terminate else p

/-- The final byte of a control sequence. -/
def finish (it : Interpreter) (v : Viewport) (b : UInt8) : Step :=
  let command := Bytes.toChar b
  { it with
    mode := .ground
    params := (closeParams it.params).fillDefaults (defaults command) }.execute v command

/-- What a byte leads to. -/
def step (it : Interpreter) (v : Viewport) (b : UInt8) : Step :=
  match it.mode with
  | .ground => it.ground v b
  | .escape => it.escape b
  | .params =>
    if 0x30 ≤ b ∧ b ≤ 0x39 then
      ⟨{ it with params := it.params.pushDigit (b.toNat - 0x30) }, [], []⟩
    else if b = 0x3B then ⟨{ it with params := it.params.terminate }, [], []⟩
    else it.finish v b

/-- What the final byte of a control sequence gives reason to remark. -/
def remarkFinish (it : Interpreter) (b : UInt8) (log : Log) : Log :=
  let command := Bytes.toChar b
  let params := closeParams it.params
  let log :=
    if params.dropped = 0 then log
    else log.add .trace fun _ =>
      s!"CSI {Text.quoteChar command}: {params.dropped} parameter(s) beyond {Params.capacity} dropped"
  if command = 'm' then
    params.given.foldl (fun log value =>
      if (Rendition.decode? value).isNone then log.add .trace fun _ => s!"ignoring SGR {value}"
      else log) log
  else if isCommand command then log
  else log.add .trace fun _ => s!"ignoring CSI command {Text.quoteChar command}"

/-- What a byte gives reason to remark. -/
def remark (it : Interpreter) (b : UInt8) (log : Log) : Log :=
  match it.mode with
  | .ground => log
  | .escape => if b = 0x63 then log.add .trace fun _ => "terminal reset" else log
  | .params =>
    if (0x30 ≤ b ∧ b ≤ 0x39) ∨ b = 0x3B then log else it.remarkFinish b log

end Interpreter

end BoardConsole.Terminal
