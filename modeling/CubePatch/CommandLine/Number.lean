import CubePatch.Hexadecimal

/-!
# Numbers on the command line

A number is an optional plus sign and at least one digit. Digits are read from the left, and the
first one that is no digit or makes the number too large decides the failure.
-/
namespace CubePatch

inductive NumberFault where
  | empty
  | invalidDigit
  | tooLarge
  deriving DecidableEq, Repr

def NumberFault.message : NumberFault → String
  | .empty => "cannot parse integer from empty string"
  | .invalidDigit => "invalid digit found in string"
  | .tooLarge => "number too large to fit in target type"

/-- Reads digits behind those of `number`. The result has to stay below `limit`. -/
def readDigits (radix limit number : Nat) : List Char → Except NumberFault Nat
  | [] => .ok number
  | c :: rest =>
    match (hexDigit? c).filter (· < radix) with
    | none => .error .invalidDigit
    | some digit =>
      if number * radix + digit < limit then
        readDigits radix limit (number * radix + digit) rest
      else .error .tooLarge

def readNumber (radix limit : Nat) (text : List Char) : Except NumberFault Nat :=
  match text with
  | [] => .error .empty
  | ['+'] => .error .invalidDigit
  | '+' :: digits => readDigits radix limit 0 digits
  | digits => readDigits radix limit 0 digits

/-- Takes `0x` off the front of a text. -/
def dropHexMark : List Char → List Char
  | '0' :: 'x' :: digits => digits
  | '0' :: 'X' :: digits => digits
  | digits => digits

/-- Reads a word in hexadecimal, with or without `0x`. -/
def readHexWord (text : String) : Except NumberFault UInt32 :=
  (readNumber 16 UInt32.size (dropHexMark text.toList)).map UInt32.ofNat

/-- Reads a seed in decimal. -/
def readSeed (text : String) : Except NumberFault UInt64 :=
  (readNumber 10 UInt64.size text.toList).map UInt64.ofNat

end CubePatch
