/-!
# Numbers as typed

Two readers.  `parse?` takes a number of a given width in the notations of the command line:
hexadecimal after `0x`, octal after `0o` or a leading zero, binary after `0b`, otherwise decimal;
there is no sign.  `parseWord` takes a 32-bit word in one radix, allows a plus sign, and says
what is wrong with anything else.
-/

namespace BoardConsole.Numeral

/-- The value of a digit in a radix of at most sixteen. -/
def digit? (radix : Nat) (c : Char) : Option Nat :=
  let n := c.toNat
  let value :=
    if 48 ≤ n && n ≤ 57 then n - 48
    else if 65 ≤ n && n ≤ 90 then n - 55
    else if 97 ≤ n && n ≤ 122 then n - 87
    else radix
  if value < radix then some value else none

/-- The value of a digit string read onto a value so far. -/
def valueOnto (radix : Nat) : Nat → List Char → Option Nat
  | value, [] => some value
  | value, c :: cs =>
    match digit? radix c with
    | some d => valueOnto radix (value * radix + d) cs
    | none => none

/-- The value of a digit string, which is not empty. -/
def value? (radix : Nat) (cs : List Char) : Option Nat :=
  if cs.isEmpty then none else valueOnto radix 0 cs

/-- The radix a literal announces, and its digits. -/
def radix : List Char → Nat × List Char
  | '0' :: 'x' :: cs => (16, cs)
  | '0' :: 'X' :: cs => (16, cs)
  | '0' :: 'o' :: cs => (8, cs)
  | '0' :: 'O' :: cs => (8, cs)
  | '0' :: 'b' :: cs => (2, cs)
  | '0' :: 'B' :: cs => (2, cs)
  | '0' :: c :: cs => (8, c :: cs)
  | cs => (10, cs)

/-- The number a literal denotes, if it fits the given count of bits, never more than 32. -/
def parse? (text : List Char) (bits : Nat) : Option Nat :=
  let (base, cs) := radix text
  (value? base cs).filter (· < 1 <<< min bits 32)

/-- Why a text is not a 32-bit word. -/
inductive Refusal
  /-- There are no digits. -/
  | empty
  /-- A character is not a digit. -/
  | invalidDigit
  /-- The value does not fit. -/
  | overflow
  deriving DecidableEq, Repr

/-- What is said about a refused word. -/
def Refusal.message : Refusal → String
  | .empty => "cannot parse integer from empty string"
  | .invalidDigit => "invalid digit found in string"
  | .overflow => "number too large to fit in target type"

/-- A 32-bit word read onto a value so far.  The first fault from the left counts, and at one
digit a bad character counts before an overflow. -/
def wordOnto (radix : Nat) : Nat → List Char → Except Refusal Nat
  | value, [] => .ok value
  | value, c :: cs =>
    match digit? radix c with
    | none => .error .invalidDigit
    | some d =>
      if value * radix + d < 2 ^ 32 then wordOnto radix (value * radix + d) cs
      else .error .overflow

/-- A 32-bit word in a radix.  A sign needs digits after it, and only plus is one. -/
def parseWord (radix : Nat) : List Char → Except Refusal Nat
  | [] => .error .empty
  | ['+'] => .error .invalidDigit
  | '+' :: cs => wordOnto radix 0 cs
  | cs => wordOnto radix 0 cs

end BoardConsole.Numeral
