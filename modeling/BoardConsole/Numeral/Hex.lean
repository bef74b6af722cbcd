import BoardConsole.Text.Quoted
import BoardConsole.Text.Utf8

/-!
# Hexadecimal

Numbers travel over the monitor's wire as digit strings of fixed width, most significant digit
first and in upper case, and every byte that comes back is exactly two digits.  Fixed width is
division by powers of sixteen: higher digits are cut off, missing ones are zero.
-/

namespace BoardConsole.Hex

/-- The upper-case digit of a value below sixteen. -/
def digit (d : Nat) : Char := if d < 10 then Char.ofNat (48 + d) else Char.ofNat (55 + d)

/-- The value of a digit of either case. -/
def digit? (c : Char) : Option Nat :=
  let n := c.toNat
  if 48 ≤ n && n ≤ 57 then some (n - 48)
  else if 65 ≤ n && n ≤ 70 then some (n - 55)
  else if 97 ≤ n && n ≤ 102 then some (n - 87)
  else none

/-- The low digits of a number, the given count of them, before some text. -/
def digitsBefore (value : Nat) : Nat → List Char → List Char
  | 0, rest => rest
  | n + 1, rest => digitsBefore (value / 16) n (digit (value % 16) :: rest)

/-- The low digits of a number, the given count of them. -/
def digits (value count : Nat) : List Char := digitsBefore value count []

theorem digitsBefore_eq (value n : Nat) (rest : List Char) :
    digitsBefore value n rest = digits value n ++ rest := by
  induction n generalizing value rest with
  | zero => rfl
  | succ n ih =>
    show digitsBefore (value / 16) n (digit (value % 16) :: rest)
      = digitsBefore (value / 16) n [digit (value % 16)] ++ rest
    rw [ih, ih _ [_], List.append_assoc, List.singleton_append]

@[simp] theorem digits_zero (value : Nat) : digits value 0 = [] := rfl

theorem digits_succ (value n : Nat) :
    digits value (n + 1) = digits (value / 16) n ++ [digit (value % 16)] :=
  digitsBefore_eq (value / 16) n [digit (value % 16)]

/-- A number of 32 bits on the wire.  Width zero still sends one digit, a zero. -/
def encode (value width : Nat) : List Char :=
  if width = 0 then ['0'] else digits value width

/-- A byte as two upper-case digits. -/
def byte (b : UInt8) : String := String.ofList (digits b.toNat 2)

/-- A number in lower case with at least the given count of digits. -/
def lower (value width : Nat) : String :=
  let ds := Nat.toDigits 16 value
  String.ofList (List.replicate (width - ds.length) '0' ++ ds)

/-- A number in upper case with at least the given count of digits. -/
def upper (value width : Nat) : String := String.ofList ((lower value width).toList.map Char.toUpper)

/-- A reply that is not two hexadecimal digits. -/
structure Garbled where
  /-- The reply as text. -/
  text : String
  deriving DecidableEq, Repr

/-- What is said about a garbled reply. -/
def Garbled.message (g : Garbled) : String := s!"invalid reply {Text.quote g.text}"

/-- The byte that two digits stand for. -/
def decodeByte (token : Bytes) : Except Garbled UInt8 :=
  match token with
  | [high, low] =>
    match digit? (Bytes.toChar high), digit? (Bytes.toChar low) with
    | some h, some l => .ok (UInt8.ofNat (16 * h + l))
    | _, _ => .error ⟨String.ofList (Utf8.decodeLenient token)⟩
  | _ => .error ⟨String.ofList (Utf8.decodeLenient token)⟩

end BoardConsole.Hex
