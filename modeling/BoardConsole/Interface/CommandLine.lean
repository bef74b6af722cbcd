/-!
# The command line

An editor for one line of text: the characters before the cursor and those after it.

* `CommandLine`: the line, with `text` and `cursor` as its view.
* `CommandLine.view`: the part of it that is shown.
-/

namespace BoardConsole.Interface

/-- A line with a cursor in it. -/
structure CommandLine where
  /-- The characters before the cursor, nearest first. -/
  before : List Char := []
  /-- The characters after the cursor, nearest first. -/
  after : List Char := []
  deriving DecidableEq, Repr

namespace CommandLine

/-- The whole line. -/
def text (c : CommandLine) : List Char := c.before.reverse ++ c.after

/-- The number of characters before the cursor. -/
def cursor (c : CommandLine) : Nat := c.before.length

/-- Whether there is no text. -/
def isEmpty (c : CommandLine) : Bool := c.before.isEmpty && c.after.isEmpty

/-- A character put in before the cursor. -/
def insert (c : CommandLine) (char : Char) : CommandLine := { c with before := char :: c.before }

/-- The character before the cursor taken out. -/
def backspace (c : CommandLine) : CommandLine := { c with before := c.before.tail }

/-- The character after the cursor taken out. -/
def delete (c : CommandLine) : CommandLine := { c with after := c.after.tail }

/-- The cursor moved back by one character. -/
def left (c : CommandLine) : CommandLine :=
  match c.before with
  | [] => c
  | char :: rest => ⟨rest, char :: c.after⟩

/-- The cursor moved on by one character. -/
def right (c : CommandLine) : CommandLine :=
  match c.after with
  | [] => c
  | char :: rest => ⟨char :: c.before, rest⟩

/-- The cursor moved to the start. -/
def home (c : CommandLine) : CommandLine := ⟨[], c.text⟩

/-- The cursor moved to the end. -/
def toEnd (c : CommandLine) : CommandLine := ⟨c.after.reverse ++ c.before, []⟩

/-- The text after the cursor taken out. -/
def killRight (c : CommandLine) : CommandLine := { c with after := [] }

/-- The text after the cursor taken out, or else the text before it. -/
def clear (c : CommandLine) : CommandLine :=
  if c.after.isEmpty then { c with before := [] } else { c with after := [] }

/-- Spaces at the front of some text. -/
def isSpace (char : Char) : Bool := char = ' '

/-- The cursor moved to the start of the word before it. -/
def wordLeft (c : CommandLine) : CommandLine :=
  let spaces := c.before.takeWhile isSpace
  let rest := c.before.dropWhile isSpace
  let word := rest.takeWhile (!isSpace ·)
  ⟨rest.dropWhile (!isSpace ·), word.reverse ++ (spaces.reverse ++ c.after)⟩

/-- The cursor moved past the word after it and the spaces that follow. -/
def wordRight (c : CommandLine) : CommandLine :=
  let word := c.after.takeWhile (!isSpace ·)
  let rest := c.after.dropWhile (!isSpace ·)
  let spaces := rest.takeWhile isSpace
  ⟨spaces.reverse ++ (word.reverse ++ c.before), rest.dropWhile isSpace⟩

/-- The part of the line that fits some columns, and the cursor's column in it.  When the line does
not fit, an eighth of the columns is kept for what comes after the cursor. -/
def view (c : CommandLine) (width : Nat) : List Char × Nat :=
  let before := c.before.length
  let after := c.after.length
  if width = 0 then ([], 0)
  else if before + after < width then (c.text, before)
  else
    let margin := width / 8
    let (shownBefore, shownAfter) :=
      if before < width - margin then (before, min (width - before) after)
      else (width - min margin after - 1, min margin after)
    ((c.before.take shownBefore).reverse ++ c.after.take shownAfter, shownBefore)

end CommandLine

end BoardConsole.Interface
