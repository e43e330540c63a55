import CubePatch.Bytes

/-!
# Text encodings

Files are read as UTF-8, as UTF-16 when they start with its byte order mark, and as Windows-1252
when they are not well formed. A mark decides over any other choice and is not part of the text.
Decoding gives the characters in order, and nothing where the bytes are no character: one gap for
each longest start of a character that breaks off, and one for each byte that starts none.
-/
namespace CubePatch

/-- Text with gaps where bytes could not be decoded. -/
abbrev Decoded := List (Option Char)

/-- What is shown for a gap. -/
def replacementChar : Char := '\uFFFD'

def Decoded.chars (text : Decoded) : List Char :=
  text.map (·.getD replacementChar)

def Decoded.isWhole (text : Decoded) : Bool :=
  text.all Option.isSome

inductive TextEncoding where
  | utf8
  | utf16Big
  | utf16Little
  | windows1252
  deriving DecidableEq, Repr

namespace Utf8

/-- Takes off a byte between two bounds and gives its low six bits. -/
def takeBetween? (low high : UInt8) : Bytes → Option (Nat × Bytes)
  | byte :: rest => if low ≤ byte ∧ byte ≤ high then some (byte.toNat % 64, rest) else none
  | [] => none

theorem length_of_takeBetween? {low high : UInt8} {bytes rest : Bytes} {bits : Nat}
    (taken : takeBetween? low high bytes = some (bits, rest)) : rest.length ≤ bytes.length := by
  unfold takeBetween? at taken
  split at taken
  · split at taken
    · simp only [Option.some.injEq, Prod.mk.injEq] at taken
      simp [← taken.2]
    · cases taken
  · cases taken

/-- Reads `count` more bytes of a character, the first of them between two bounds. -/
def takeRest (value count : Nat) (low high : UInt8) (bytes : Bytes) : Option Char × Bytes :=
  match count with
  | 0 => (some (Char.ofNat value), bytes)
  | count + 1 =>
    match takeBetween? low high bytes with
    | none => (none, bytes)
    | some (bits, rest) => takeRest (value * 64 + bits) count 0x80 0xBF rest

theorem length_takeRest (value count : Nat) (low high : UInt8) (bytes : Bytes) :
    (takeRest value count low high bytes).2.length ≤ bytes.length := by
  induction count generalizing value low high bytes with
  | zero => exact Nat.le_refl _
  | succ count ih =>
    unfold takeRest
    split
    · exact Nat.le_refl _
    next bits rest taken => exact Nat.le_trans (ih _ _ _ _) (length_of_takeBetween? taken)

/-- Reads the character that starts with `first`. The bounds of the second byte keep out longer
forms of a character than needed, surrogates, and numbers that are no character. -/
def takeChar (first : UInt8) (bytes : Bytes) : Option Char × Bytes :=
  let value := first.toNat
  if first < 0x80 then (some (Char.ofNat value), bytes)
  else if first < 0xC2 then (none, bytes)
  else if first < 0xE0 then takeRest (value % 32) 1 0x80 0xBF bytes
  else if first < 0xF0 then
    takeRest (value % 16) 2 (if first = 0xE0 then 0xA0 else 0x80)
      (if first = 0xED then 0x9F else 0xBF) bytes
  else if first < 0xF5 then
    takeRest (value % 8) 3 (if first = 0xF0 then 0x90 else 0x80)
      (if first = 0xF4 then 0x8F else 0xBF) bytes
  else (none, bytes)

theorem length_takeChar (first : UInt8) (bytes : Bytes) :
    (takeChar first bytes).2.length ≤ bytes.length := by
  simp only [takeChar]
  repeat' split
  all_goals first | exact Nat.le_refl _ | exact length_takeRest _ _ _ _ _

/-- Decodes bytes behind text that was decoded before, which is given in reverse. -/
def decodeOnto (before : Decoded) (bytes : Bytes) : Decoded :=
  match bytes with
  | [] => before.reverse
  | first :: rest => decodeOnto ((takeChar first rest).1 :: before) (takeChar first rest).2
termination_by bytes.length
decreasing_by
  have shorter := length_takeChar first rest
  simp only [List.length_cons]
  omega

def decode (bytes : Bytes) : Decoded :=
  decodeOnto [] bytes

end Utf8

namespace Utf16

def isHigh (unit : Nat) : Bool :=
  0xD800 ≤ unit && unit < 0xDC00

def isLow (unit : Nat) : Bool :=
  0xDC00 ≤ unit && unit < 0xE000

/-- Decodes code units behind text that was decoded before, which is given in reverse. A byte left
over at the end makes one gap, together with a unit that waits for its second half. -/
def decodeOnto (before : Decoded) (leftOver : Bool) : List Nat → Decoded
  | [] => (if leftOver then none :: before else before).reverse
  | [unit] =>
    if isHigh unit then (none :: before).reverse
    else
      let char := if isLow unit then none else some (Char.ofNat unit)
      decodeOnto (char :: before) leftOver []
  | unit :: next :: rest =>
    if isHigh unit then
      if isLow next then
        let value := 0x10000 + (unit - 0xD800) * 0x400 + (next - 0xDC00)
        decodeOnto (some (Char.ofNat value) :: before) leftOver rest
      else decodeOnto (none :: before) leftOver (next :: rest)
    else
      let char := if isLow unit then none else some (Char.ofNat unit)
      decodeOnto (char :: before) leftOver (next :: rest)

def decode (bigEndian : Bool) (bytes : Bytes) : Decoded :=
  let unit := fun (first, second) =>
    if bigEndian then first.toNat * 256 + second.toNat else second.toNat * 256 + first.toNat
  decodeOnto [] (bytes.length % 2 = 1) ((halves bytes).map unit)

end Utf16

namespace Windows1252

/-- The characters of the bytes from `0x80` to `0x9F`. -/
def upperControls : List Nat :=
  [0x20AC, 0x81, 0x201A, 0x0192, 0x201E, 0x2026, 0x2020, 0x2021,
    0x02C6, 0x2030, 0x0160, 0x2039, 0x0152, 0x8D, 0x017D, 0x8F,
    0x90, 0x2018, 0x2019, 0x201C, 0x201D, 0x2022, 0x2013, 0x2014,
    0x02DC, 0x2122, 0x0161, 0x203A, 0x0153, 0x9D, 0x017E, 0x0178]

def charOf (byte : UInt8) : Char :=
  if 0x80 ≤ byte ∧ byte < 0xA0 then
    Char.ofNat (upperControls.getD (byte.toNat - 0x80) byte.toNat)
  else Char.ofNat byte.toNat

/-- Every byte is a character. -/
def decode (bytes : Bytes) : Decoded :=
  bytes.map fun byte => some (charOf byte)

end Windows1252

namespace TextEncoding

/-- The encoding named by a byte order mark, and the bytes behind the mark. -/
def ofMark? : Bytes → Option (TextEncoding × Bytes)
  | 0xEF :: 0xBB :: 0xBF :: rest => some (.utf8, rest)
  | 0xFF :: 0xFE :: rest => some (.utf16Little, rest)
  | 0xFE :: 0xFF :: rest => some (.utf16Big, rest)
  | _ => none

def decode (encoding : TextEncoding) (bytes : Bytes) : Decoded :=
  match encoding with
  | .utf8 => Utf8.decode bytes
  | .utf16Big => Utf16.decode true bytes
  | .utf16Little => Utf16.decode false bytes
  | .windows1252 => Windows1252.decode bytes

/-- Decodes by the byte order mark, or else by the given encoding. -/
def decodeMarked (encoding : TextEncoding) (bytes : Bytes) : Decoded :=
  match ofMark? bytes with
  | some (marked, rest) => marked.decode rest
  | none => encoding.decode bytes

end TextEncoding

/-- Whether a file is well formed as it is. -/
def isWellFormedText (bytes : Bytes) : Bool :=
  (TextEncoding.utf8.decodeMarked bytes).isWhole

/-- The text of a file. -/
def decodeText (bytes : Bytes) : List Char :=
  let text := TextEncoding.utf8.decodeMarked bytes
  if text.isWhole then text.chars else (TextEncoding.windows1252.decodeMarked bytes).chars

end CubePatch
