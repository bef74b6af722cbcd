/-!
# Byte strings

Everything that crosses a link is a list of bytes.  The list form keeps every operation on them
(taking what fits into a buffer, cutting a file into blocks) an operation on lists.
-/

namespace BoardConsole

/-- A byte string, first byte first. -/
abbrev Bytes := List UInt8

namespace Bytes

/-- The byte with the same code as a Latin-1 character. -/
def ofChar (c : Char) : UInt8 := UInt8.ofNat c.toNat

/-- The Latin-1 character with the same code as a byte. -/
def toChar (b : UInt8) : Char := Char.ofNat b.toNat

theorem toNat_toChar (b : UInt8) : (toChar b).toNat = b.toNat := by
  have hb := b.toNat_lt
  have hvalid : b.toNat.isValidChar := .inl (by omega)
  rw [toChar, Char.ofNat, dif_pos hvalid]
  rfl

/-- Whether a byte is printable ASCII, the space included. -/
def isPrintable (b : UInt8) : Bool := 32 ≤ b && b < 127

end Bytes

end BoardConsole
