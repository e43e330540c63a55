/-!
# Bit fields of a word

Bits are numbered from the most significant one, as in the processor's manuals: bit 0 is the sign
bit and bit 31 the lowest. A field is named by its first and its last bit and is read right-aligned.
For `first ≤ last ≤ 31` no shift amount reaches 32, so none of them is reduced.
-/
namespace CubePatch

/-- Ones from bit `first` to bit `last`, zeros elsewhere. -/
def fieldMask (first last : Nat) : UInt32 :=
  (0xFFFFFFFF : UInt32) >>> UInt32.ofNat (first + (31 - last)) <<< UInt32.ofNat (31 - last)

/-- Bits `first` to `last` as an unsigned number. -/
def field (word : UInt32) (first last : Nat) : UInt32 :=
  (word &&& fieldMask first last) >>> UInt32.ofNat (31 - last)

/-- Bits `first` to `last` as a signed number; bit `first` is the sign. -/
def signedField (word : UInt32) (first last : Nat) : Int32 :=
  let shift := 31 - (last - first)
  (field word first last <<< UInt32.ofNat shift).toInt32 >>> Int32.ofNat shift

/-- A field of at most sixteen bits. -/
def halfField (word : UInt32) (first last : Nat) : UInt16 :=
  (field word first last).toUInt16

/-- The low sixteen bits of a signed field. -/
def signedHalfField (word : UInt32) (first last : Nat) : Int16 :=
  (signedField word first last).toInt16

/-- A field of at most eight bits. -/
def byteField (word : UInt32) (first last : Nat) : UInt8 :=
  (field word first last).toUInt8

/-- The low eight bits of a signed field. -/
def signedByteField (word : UInt32) (first last : Nat) : Int8 :=
  (signedField word first last).toInt8

/-- One bit, left in its place. -/
def bitAt (word : UInt32) (bit : Nat) : UInt32 :=
  word &&& (1 <<< UInt32.ofNat (31 - bit))

def isSet (word : UInt32) (bit : Nat) : Bool :=
  bitAt word bit != 0

/-- The primary opcode, bits 0 to 5. -/
def primaryOpcode (word : UInt32) : UInt32 :=
  word >>> 26

/-- The opcode that tells the register branches apart, bits 21 to 30. -/
def extendedOpcode (word : UInt32) : UInt32 :=
  field word 21 30

end CubePatch
