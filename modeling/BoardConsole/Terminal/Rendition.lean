/-!
# Rendition

How a character looks: a set of attributes and two colours, and the numbered changes to them that
a terminal sequence may ask for.
-/

namespace BoardConsole.Terminal

/-- A set of rendition attributes, one bit for each. -/
structure Attributes where
  /-- Bit by bit: bold, dim, underline, blink, reverse, conceal, alternate character set. -/
  bits : BitVec 7
  deriving DecidableEq, Repr

namespace Attributes

/-- No attribute. -/
def none : Attributes := ⟨0⟩

/-- Every attribute. -/
def all : Attributes := ⟨127⟩

/-- Increased intensity. -/
def bold : Attributes := ⟨1⟩

/-- Decreased intensity. -/
def dim : Attributes := ⟨2⟩

/-- Underlined. -/
def underline : Attributes := ⟨4⟩

/-- Blinking. -/
def blink : Attributes := ⟨8⟩

/-- Reverse video. -/
def reverse : Attributes := ⟨16⟩

/-- Concealed. -/
def conceal : Attributes := ⟨32⟩

/-- Taken from the alternate character set. -/
def altCharset : Attributes := ⟨64⟩

/-- The attributes whose bits a number has; bits beyond them are ignored. -/
def ofNat (n : Nat) : Attributes := ⟨BitVec.ofNat 7 n⟩

/-- The attributes of either set. -/
def union (a b : Attributes) : Attributes := ⟨a.bits ||| b.bits⟩

/-- The attributes of the first set that the second lacks. -/
def without (a b : Attributes) : Attributes := ⟨a.bits &&& ~~~b.bits⟩

/-- Whether the first set has every attribute of the second. -/
def contains (a b : Attributes) : Bool := a.bits &&& b.bits = b.bits

end Attributes

/-- One of eight colours, or the colour the host terminal uses by default. -/
inductive Color
  /-- Black, index 0. -/
  | black
  /-- Red, index 1. -/
  | red
  /-- Green, index 2. -/
  | green
  /-- Yellow, index 3. -/
  | yellow
  /-- Blue, index 4. -/
  | blue
  /-- Magenta, index 5. -/
  | magenta
  /-- Cyan, index 6. -/
  | cyan
  /-- White, index 7. -/
  | white
  /-- The default colour, index 8. -/
  | standard
  deriving DecidableEq, Repr

/-- The colour of an index; an index beyond the eight colours is the default. -/
def Color.ofIndex : Nat → Color
  | 0 => .black
  | 1 => .red
  | 2 => .green
  | 3 => .yellow
  | 4 => .blue
  | 5 => .magenta
  | 6 => .cyan
  | 7 => .white
  | _ => .standard

/-- The index of a colour, eight for the default. -/
def Color.index : Color → Nat
  | .black => 0
  | .red => 1
  | .green => 2
  | .yellow => 3
  | .blue => 4
  | .magenta => 5
  | .cyan => 6
  | .white => 7
  | .standard => 8

/-- All it takes to draw a character besides the character. -/
structure Pen where
  /-- Attributes in force. -/
  attributes : Attributes := .none
  /-- Colour of the character. -/
  foreground : Color := .standard
  /-- Colour behind it. -/
  background : Color := .standard
  deriving DecidableEq, Repr

/-- One numbered change of the rendition. -/
inductive Rendition
  /-- No attributes, both colours the default. -/
  | reset
  /-- Attributes turned on. -/
  | enable (attributes : Attributes)
  /-- Attributes turned off. -/
  | disable (attributes : Attributes)
  /-- Another colour for characters. -/
  | foreground (color : Color)
  /-- Another colour behind them. -/
  | background (color : Color)
  deriving DecidableEq, Repr

/-- The change that a number stands for; most numbers stand for none. -/
def Rendition.decode? (value : Nat) : Option Rendition :=
  match value with
  | 0 => some .reset
  | 1 => some (.enable .bold)
  | 2 => some (.enable .dim)
  | 4 => some (.enable .underline)
  | 5 => some (.enable .blink)
  | 6 => some (.enable .blink)
  | 7 => some (.enable .reverse)
  | 8 => some (.enable .conceal)
  | 10 => some (.disable .altCharset)
  | 21 => some (.disable .bold)
  | 22 => some (.disable .dim)
  | 24 => some (.disable .underline)
  | 25 => some (.disable .blink)
  | 26 => some (.disable .blink)
  | 27 => some (.disable .reverse)
  | 28 => some (.disable .conceal)
  | 39 => some (.foreground .standard)
  | 49 => some (.background .standard)
  | _ =>
    if 11 ≤ value ∧ value ≤ 19 then some (.enable .altCharset)
    else if 30 ≤ value ∧ value ≤ 37 then some (.foreground (.ofIndex (value - 30)))
    else if 40 ≤ value ∧ value ≤ 47 then some (.background (.ofIndex (value - 40)))
    else none

end BoardConsole.Terminal
