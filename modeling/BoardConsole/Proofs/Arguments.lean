import BoardConsole.Debugger.Command

/-!
# What the arguments of a command spell

Arguments are numbers below a bound that the command knows.  Bytes are taken one argument after
another up to the first that is none, and arguments that are empty count as little there as
anywhere.

- `numberBelow?`: the number that an argument spells, if it is small enough.
- `dataArguments`, `dataBytes`, `rejectedArgument?`: the arguments that are taken as bytes, the
  bytes, and the argument that ends them.
- `Command.parse_write`, `Command.parse_read`: the commands that words ask for, in these terms.
-/

namespace BoardConsole

/-- A width is a bound on the number that a literal denotes. -/
theorem Numeral.parse?_eq_filter (text : List Char) {bits : Nat} (h : bits ≤ 32) :
    parse? text bits = (parse? text 32).filter (· < 1 <<< bits) := by
  have hbound : 1 <<< bits ≤ 1 <<< 32 := by
    rw [Nat.one_shiftLeft, Nat.one_shiftLeft]
    exact Nat.pow_le_pow_right (by decide) h
  rw [parse?, parse?, Nat.min_eq_left h, Nat.min_self, Option.filter_filter]
  refine congrArg (Option.filter · _) (funext fun value => ?_)
  have hiff : value < 1 <<< bits ↔ value < 1 <<< 32 ∧ value < 1 <<< bits := by omega
  rw [← Bool.decide_and]
  exact decide_eq_decide.mpr hiff

namespace Debugger

/-! ## Numbers and bytes -/

/-- The number that an argument spells, if it is below a bound. -/
def numberBelow? (bound : Nat) (token : String) : Option Nat :=
  (Numeral.parse? token.toList 32).filter (· < bound)

/-- The byte that an argument spells. -/
def byte? (token : String) : Option UInt8 := (numberBelow? 256 token).map UInt8.ofNat

/-- The arguments that are taken as bytes: those that are not empty, up to the first that spells
none. -/
def dataArguments (args : List String) : List String :=
  (args.filter (· ≠ "")).takeWhile fun token => (byte? token).isSome

/-- The bytes that are taken from arguments. -/
def dataBytes (args : List String) : Bytes := (dataArguments args).filterMap byte?

/-- The argument that ends the bytes, if one does. -/
def rejectedArgument? (args : List String) : Option String :=
  ((args.filter (· ≠ "")).dropWhile fun token => (byte? token).isSome).head?

/-- Every argument that is taken is a byte. -/
theorem length_dataBytes (args : List String) :
    (dataBytes args).length = (dataArguments args).length := by
  rw [dataBytes, List.length_filterMap_eq_countP, List.countP_eq_length]
  intro token htoken
  exact List.all_eq_true.mp List.all_takeWhile token htoken

theorem numberBelow?_empty (bound : Nat) : numberBelow? bound "" = none := rfl

variable {bound value : Nat} {token : String}

theorem lt_of_numberBelow? (h : numberBelow? bound token = some value) : value < bound :=
  of_decide_eq_true (Option.filter_eq_some_iff.mp h).2

theorem ne_empty_of_numberBelow? (h : numberBelow? bound token = some value) : token ≠ "" := by
  rintro rfl
  rw [numberBelow?_empty] at h
  cases h

/-- An argument read as an address is a number of the board's width or kept as it is. -/
theorem Number.address_eq (token : String) :
    Number.address token = match numberBelow? 0x1000000 token with
      | some value => .valid value
      | none => .invalid token := by
  rw [Number.address, Numeral.parse?_eq_filter _ (by decide)]
  rfl

/-- Bytes are taken up to the first argument that is none. -/
theorem leadingBytes_eq (tokens : List String) :
    leadingBytes tokens = ((tokens.takeWhile fun token => (byte? token).isSome).filterMap byte?,
      (tokens.dropWhile fun token => (byte? token).isSome).head?) := by
  induction tokens with
  | nil => rfl
  | cons token rest ih =>
    have hbyte : byte? token = (Numeral.parse? token.toList byteBits).map UInt8.ofNat := by
      rw [byte?, Numeral.parse?_eq_filter _ (by decide)]
      rfl
    rw [leadingBytes]
    cases hparse : Numeral.parse? token.toList byteBits with
    | none =>
      rw [hparse] at hbyte
      simp [hbyte]
    | some value =>
      rw [hparse] at hbyte
      simp [hbyte, ih]

/-! ## Commands -/

namespace Command

variable {name token : String} {address : Nat}

/-- The command that writes the bytes of the arguments after an address. -/
theorem parse_write (hname : name.toLower = "write")
    (haddress : numberBelow? 0x1000000 token = some address) (args : List String) :
    parse (name :: token :: args)
      = some (.write (some ⟨.valid address, dataBytes args, rejectedArgument? args⟩)) := by
  have htoken : token ≠ "" := ne_empty_of_numberBelow? haddress
  have hvalid : Number.address token = .valid address := by
    rw [Number.address_eq, haddress]
  have hargs : (token :: args).filter (· ≠ "") = token :: args.filter (· ≠ "") :=
    List.filter_cons_of_pos (decide_eq_true htoken)
  rw [parse, hargs, ofName, hname]
  show some (Command.write (writeArgs (token :: args.filter (· ≠ "")))) = _
  rw [writeArgs, hvalid, leadingBytes_eq]
  rfl

/-- The command that shows the memory at each of its arguments. -/
theorem parse_read (hname : name.toLower = "read") (args : List String) :
    parse (name :: args) = some (.read ((args.filter (· ≠ "")).map Number.address)) := by
  rw [parse, ofName, hname]
  rfl

end Command

end Debugger

end BoardConsole
