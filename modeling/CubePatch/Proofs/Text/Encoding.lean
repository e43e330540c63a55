import CubePatch.Text.Encoding

/-!
Text that was encoded and is decoded again.

Decoding takes off the bytes of one character after the other. The bounds of the second byte, which
keep out what is no character, leave room for every character that there is.

## Main result

`decodeText_of_utf8`: a text in UTF-8 is decoded to itself, with or without a mark in front.
-/
namespace CubePatch

namespace Utf8

/-- A byte of a character behind its first one gives its low bits. -/
theorem takeBetween?_ofNat {low high : UInt8} {bits : Nat} (small : bits < 64)
    (lower : low.toNat ≤ bits + 128) (upper : bits + 128 ≤ high.toNat) (rest : Bytes) :
    takeBetween? low high (UInt8.ofNat (bits + 128) :: rest) = some (bits, rest) := by
  have value : (UInt8.ofNat (bits + 128)).toNat = bits + 128 :=
    UInt8.toNat_ofNat_of_lt' (show bits + 128 < 256 by omega)
  have inside : low ≤ UInt8.ofNat (bits + 128) ∧ UInt8.ofNat (bits + 128) ≤ high := by
    rw [UInt8.le_iff_toNat_le, UInt8.le_iff_toNat_le, value]
    exact ⟨lower, upper⟩
  rw [takeBetween?, if_pos inside, value]
  congr 2
  omega

theorem takeRest_ofNat {value count bits : Nat} {low high : UInt8} (small : bits < 64)
    (lower : low.toNat ≤ bits + 128) (upper : bits + 128 ≤ high.toNat) (rest : Bytes) :
    takeRest value (count + 1) low high (UInt8.ofNat (bits + 128) :: rest) =
      takeRest (value * 64 + bits) count 0x80 0xBF rest := by
  rw [takeRest, takeBetween?_ofNat small lower upper]

theorem takeRest_plain (value count number : Nat) (rest : Bytes) :
    takeRest value (count + 1) 0x80 0xBF (UInt8.ofNat (number % 64 + 128) :: rest) =
      takeRest (value * 64 + number % 64) count 0x80 0xBF rest := by
  have small : number % 64 < 64 := Nat.mod_lt _ (by decide)
  refine takeRest_ofNat small ?_ ?_ rest
  · show 128 ≤ number % 64 + 128
    omega
  · show number % 64 + 128 ≤ 191
    omega

theorem takeRest_zero (value : Nat) (low high : UInt8) (rest : Bytes) :
    takeRest value 0 low high rest = (some (Char.ofNat value), rest) := rfl

/-- The first byte of a character tells how many follow. -/
theorem takeChar_ofNat {byte : Nat} (small : byte < 0xF5) (bytes : Bytes) :
    takeChar (UInt8.ofNat byte) bytes =
      if byte < 0x80 then (some (Char.ofNat byte), bytes)
      else if byte < 0xC2 then (none, bytes)
      else if byte < 0xE0 then takeRest (byte % 32) 1 0x80 0xBF bytes
      else if byte < 0xF0 then
        takeRest (byte % 16) 2 (if byte = 0xE0 then 0xA0 else 0x80)
          (if byte = 0xED then 0x9F else 0xBF) bytes
      else takeRest (byte % 8) 3 (if byte = 0xF0 then 0x90 else 0x80)
        (if byte = 0xF4 then 0x8F else 0xBF) bytes := by
  have value : (UInt8.ofNat byte).toNat = byte :=
    UInt8.toNat_ofNat_of_lt' (show byte < 256 by omega)
  have order (bound : UInt8) : UInt8.ofNat byte < bound ↔ byte < bound.toNat := by
    rw [UInt8.lt_iff_toNat_lt, value]
  have same (other : UInt8) : UInt8.ofNat byte = other ↔ byte = other.toNat := by
    rw [← UInt8.toNat_inj, value]
  have last : byte < (0xF5 : UInt8).toNat := small
  simp only [takeChar, order, same, value, last, if_true]
  rfl

/-- The bytes of a character are taken off as that character, whatever stands behind them. -/
theorem takeChar_utf8EncodeChar (c : Char) (rest : Bytes) :
    ∃ first more, String.utf8EncodeChar c = first :: more ∧
      takeChar first (more ++ rest) = (some c, rest) := by
  have valid := c.valid
  have number : Char.ofNat c.toNat = c := Char.ofNat_toNat c
  have scalar : c.toNat < 0xD800 ∨ 0xDFFF < c.toNat ∧ c.toNat < 0x110000 := valid
  have shape : String.utf8EncodeChar c =
      if c.toNat ≤ 127 then [UInt8.ofNat c.toNat]
      else if c.toNat ≤ 2047 then
        [UInt8.ofNat (c.toNat / 64 % 32 + 192), UInt8.ofNat (c.toNat % 64 + 128)]
      else if c.toNat ≤ 65535 then
        [UInt8.ofNat (c.toNat / 4096 % 16 + 224), UInt8.ofNat (c.toNat / 64 % 64 + 128),
          UInt8.ofNat (c.toNat % 64 + 128)]
      else
        [UInt8.ofNat (c.toNat / 262144 % 8 + 240), UInt8.ofNat (c.toNat / 4096 % 64 + 128),
          UInt8.ofNat (c.toNat / 64 % 64 + 128), UInt8.ofNat (c.toNat % 64 + 128)] := rfl
  rw [shape]
  generalize c.toNat = value at number scalar
  clear shape valid
  -- one case for each length; the parts that are taken off make up the number again
  by_cases one : value ≤ 127
  · refine ⟨_, _, if_pos one, ?_⟩
    rw [takeChar_ofNat (by omega), if_pos (by omega), number, List.nil_append]
  rw [if_neg one]
  by_cases two : value ≤ 2047
  · refine ⟨_, _, if_pos two, ?_⟩
    rw [takeChar_ofNat (by omega), if_neg (by omega), if_neg (by omega), if_pos (by omega),
      List.cons_append, takeRest_plain, takeRest_zero, List.nil_append, ← number]
    congr 3
    omega
  rw [if_neg two]
  by_cases three : value ≤ 65535
  · refine ⟨_, _, if_pos three, ?_⟩
    have small : value / 64 % 64 < 64 := Nat.mod_lt _ (by decide)
    rw [takeChar_ofNat (by omega), if_neg (by omega), if_neg (by omega), if_neg (by omega),
      if_pos (by omega), List.cons_append, takeRest_ofNat small, List.cons_append, takeRest_plain,
      takeRest_zero, List.nil_append, ← number]
    · congr 3
      omega
    · -- shorter characters have no second byte below the bound
      split
      · show 160 ≤ _
        omega
      · show 128 ≤ _
        omega
    · -- surrogates are the characters with a second byte above the bound
      split
      · show _ ≤ 159
        omega
      · show _ ≤ 191
        omega
  · refine ⟨_, _, if_neg three, ?_⟩
    have small : value / 4096 % 64 < 64 := Nat.mod_lt _ (by decide)
    rw [takeChar_ofNat (by omega), if_neg (by omega), if_neg (by omega), if_neg (by omega),
      if_neg (by omega), List.cons_append, takeRest_ofNat small, List.cons_append, takeRest_plain,
      List.cons_append, takeRest_plain, takeRest_zero, List.nil_append, ← number]
    · congr 3
      omega
    · split
      · show 144 ≤ _
        omega
      · show 128 ≤ _
        omega
    · split
      · show _ ≤ 143
        omega
      · show _ ≤ 191
        omega

/-- A text is decoded character by character. -/
theorem decodeOnto_utf8 (before : Decoded) (text : List Char) :
    decodeOnto before (text.flatMap String.utf8EncodeChar) = before.reverse ++ text.map some := by
  induction text generalizing before with
  | nil => simp [decodeOnto]
  | cons c text ih =>
    obtain ⟨first, more, encoded, taken⟩ :=
      takeChar_utf8EncodeChar c (text.flatMap String.utf8EncodeChar)
    rw [List.flatMap_cons, encoded, List.cons_append, decodeOnto, taken, ih]
    simp

theorem decode_utf8 (text : List Char) :
    decode (text.flatMap String.utf8EncodeChar) = text.map some :=
  decodeOnto_utf8 [] text

end Utf8

/-- The bytes of a text in UTF-8: behind a byte order mark, or without one if the text does not begin
with the character that is the mark. -/
inductive IsUtf8Of (text : List Char) : Bytes → Prop where
  | marked : IsUtf8Of text (0xEF :: 0xBB :: 0xBF :: text.flatMap String.utf8EncodeChar)
  | bare (unmarked : text.head? ≠ some '\uFEFF') :
      IsUtf8Of text (text.flatMap String.utf8EncodeChar)

/-- Only the mark itself is taken for a mark, since no other character has its bytes. -/
theorem ofMark?_utf8 {text : List Char} (unmarked : text.head? ≠ some '\uFEFF') :
    TextEncoding.ofMark? (text.flatMap String.utf8EncodeChar) = none := by
  cases text with
  | nil => rfl
  | cons c text =>
    obtain ⟨first, more, encoded, taken⟩ :=
      Utf8.takeChar_utf8EncodeChar c (text.flatMap String.utf8EncodeChar)
    rw [List.flatMap_cons, encoded, List.cons_append]
    generalize more ++ text.flatMap String.utf8EncodeChar = bytes at taken
    generalize text.flatMap String.utf8EncodeChar = rest at taken
    unfold TextEncoding.ofMark?
    split
    next behind same =>
      cases same
      have mark : Utf8.takeChar 0xEF (0xBB :: 0xBF :: behind) = (some '\uFEFF', behind) := rfl
      rw [mark] at taken
      cases taken
      exact absurd rfl unmarked
    -- the other marks start with a byte that starts no character
    next behind same =>
      cases same
      have no_char : Utf8.takeChar 0xFF (0xFE :: behind) = (none, 0xFE :: behind) := rfl
      rw [no_char] at taken
      cases taken
    next behind same =>
      cases same
      have no_char : Utf8.takeChar 0xFE (0xFF :: behind) = (none, 0xFF :: behind) := rfl
      rw [no_char] at taken
      cases taken
    next => rfl

theorem decodeText_of_utf8 {text : List Char} {bytes : Bytes} (encoded : IsUtf8Of text bytes) :
    decodeText bytes = text := by
  have decoded : TextEncoding.utf8.decodeMarked bytes = text.map some := by
    cases encoded with
    | marked => exact Utf8.decode_utf8 text
    | bare unmarked =>
      rw [TextEncoding.decodeMarked, ofMark?_utf8 unmarked]
      exact Utf8.decode_utf8 text
  have whole : Decoded.isWhole (text.map some) = true := by
    simp [Decoded.isWhole]
  have chars : Decoded.chars (text.map some) = text := by
    simp [Decoded.chars, Function.comp_def]
  rw [decodeText, decoded, if_pos whole, chars]

end CubePatch
