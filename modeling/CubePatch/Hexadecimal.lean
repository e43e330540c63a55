/-!
# Hexadecimal numbers

Addresses, sizes and offsets in messages are printed in hexadecimal behind `0x`, lower case.
Addresses are padded with zeros to a fixed number of digits; a number that needs more digits is never
cut. Digits are read in either case.
-/
namespace CubePatch

/-- The digits of a number in lower case, at least one. -/
def hexDigits (number : Nat) : List Char :=
  Nat.toDigits 16 number

/-- Pads with zeros on the left up to `width` characters. -/
def padZeros (width : Nat) (digits : List Char) : List Char :=
  List.replicate (width - digits.length) '0' ++ digits

/-- A size or an offset, as short as possible. -/
def hex (number : Nat) : String :=
  "0x" ++ String.ofList (hexDigits number)

/-- A number with at least `width` digits. -/
def hexWide (width number : Nat) : String :=
  "0x" ++ String.ofList (padZeros width (hexDigits number))

/-- An address, or any other word, with its eight digits. -/
def hexWord (word : UInt32) : String :=
  hexWide 8 word.toNat

/-- A byte as two upper case digits and nothing before them. -/
def hexByteUpper (byte : UInt8) : String :=
  String.ofList ((padZeros 2 (hexDigits byte.toNat)).map Char.toUpper)

/-- The value of a digit. -/
def hexDigit? (c : Char) : Option Nat :=
  if '0' ≤ c ∧ c ≤ '9' then some (c.toNat - '0'.toNat)
  else if 'a' ≤ c ∧ c ≤ 'f' then some (c.toNat - 'a'.toNat + 10)
  else if 'A' ≤ c ∧ c ≤ 'F' then some (c.toNat - 'A'.toNat + 10)
  else none

end CubePatch
