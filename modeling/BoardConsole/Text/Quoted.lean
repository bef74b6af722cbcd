import BoardConsole.Text.Shapeless

/-!
# Quoted text

Diagnostics show foreign text between quotation marks, on one line and without ambiguity: the
backslash and the quotation mark are escaped, the usual controls have letters, and every other
character without a shape of its own is written as its code point.
-/

namespace BoardConsole.Text

/-- Which quotation marks are escaped inside quoted text. -/
structure Marks where
  /-- The apostrophe is escaped. -/
  single : Bool
  /-- The double quotation mark is escaped. -/
  double : Bool

/-- The marks escaped in a text. -/
def Marks.text : Marks := ⟨false, true⟩

/-- The marks escaped in a character. -/
def Marks.char : Marks := ⟨true, false⟩

/-- A character as it stands inside quotation marks. -/
def escape (marks : Marks) (c : Char) : List Char :=
  if c = '\x00' then ['\\', '0']
  else if c = '\t' then ['\\', 't']
  else if c = '\r' then ['\\', 'r']
  else if c = '\n' then ['\\', 'n']
  else if c = '\\' then ['\\', '\\']
  else if c = '\x22' && marks.double then ['\\', '\x22']
  else if c = '\x27' && marks.single then ['\\', '\x27']
  else if isShapeless c then
    ['\\', 'u', '\x7b'] ++ Nat.toDigits 16 c.toNat ++ ['\x7d']
  else [c]

/-- A text in double quotation marks. -/
def quote (text : String) : String :=
  String.ofList (['\x22'] ++ text.toList.flatMap (escape .text) ++ ['\x22'])

/-- A character in single quotation marks. -/
def quoteChar (c : Char) : String :=
  String.ofList (['\x27'] ++ escape .char c ++ ['\x27'])

end BoardConsole.Text
