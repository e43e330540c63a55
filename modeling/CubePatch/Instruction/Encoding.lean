import CubePatch.Instruction

/-!
# Instruction words the patcher writes

Plain branches, and the halves of an address for a pair of immediate loads. A displacement keeps its
low 26 bits and loses the lowest two, so a branch reaches 32 MiB in each direction; all of the
console's main memory lies within that distance.
-/
namespace CubePatch

/-- The word of `blr`, which returns to the caller. -/
def returnWord : UInt32 := 0x4E800020

/-- A branch from `source` to `target`. -/
def branchWord (source target : UInt32) (link : Bool) : UInt32 :=
  ((target - source) &&& 0x03FFFFFC) ||| 0x48000000 ||| (if link then 1 else 0)

/-- The upper half of an address. -/
def upperHalf (address : UInt32) : UInt16 :=
  (address >>> 16).toUInt16

/-- The lower half of an address. -/
def lowerHalf (address : UInt32) : UInt16 :=
  address.toUInt16

/-- The upper half for a pair whose lower half is added with its sign: one more than the upper half
when the lower half counts as negative. -/
def adjustedUpperHalf (address : UInt32) : UInt16 :=
  if address &&& 0x8000 ≠ 0 then upperHalf address + 1 else upperHalf address

/-- The address that a pair loads when the lower half is added with its sign. -/
def joinSigned (upper lower : UInt16) : UInt32 :=
  (upper.toUInt32 <<< 16) + lower.toInt16.toInt32.toUInt32

/-- The address that a pair loads when the lower half is set bit by bit. -/
def joinPlain (upper lower : UInt16) : UInt32 :=
  (upper.toUInt32 <<< 16) ||| lower.toUInt32

end CubePatch
