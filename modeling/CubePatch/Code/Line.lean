import CubePatch.Bytes

/-!
# Code lines

A code list is made of lines of two words. The first byte of a code's first line tells what the code
does and how many bytes follow the line. The second word, the operand, is untrusted: lengths are
natural numbers, so that none of them wraps.
-/
namespace CubePatch

/-- What a code does. -/
inductive CodeKind where
  /-- Repeats a byte. -/
  | fillBytes
  /-- Repeats a halfword. -/
  | fillHalves
  | writeWord
  /-- Writes the bytes behind the line, which are padded to whole lines. -/
  | writeString
  /-- Writes a value again and again while address and value advance. -/
  | serialWrite
  /-- Opens a block that runs under a condition. -/
  | condition
  /-- Runs the instructions behind the line; the operand counts their lines. -/
  | assembly
  /-- Writes a branch from the target address to the operand. -/
  | insertBranch
  | endCondition
  | terminator
  /-- Runs instructions; the upper half of the operand counts their lines. -/
  | checkedAssembly
  /-- Searches memory; the operand counts the lines behind. -/
  | search
  | other (opcode : UInt8)
  deriving DecidableEq, Repr

namespace CodeKind

def ofOpcode (opcode : UInt8) : CodeKind :=
  if opcode ∈ [0x00, 0x01, 0x10, 0x11] then .fillBytes
  else if opcode ∈ [0x02, 0x03, 0x12, 0x13] then .fillHalves
  else if opcode ∈ [0x04, 0x05, 0x14, 0x15] then .writeWord
  else if opcode ∈ [0x06, 0x07, 0x16, 0x17] then .writeString
  else if opcode ∈ [0x08, 0x09, 0x18, 0x19] then .serialWrite
  else if 0x20 ≤ opcode ∧ opcode ≤ 0x3F then .condition
  else if (0xC0 ≤ opcode ∧ opcode ≤ 0xC5) ∨ (0xD0 ≤ opcode ∧ opcode ≤ 0xD5) then .assembly
  else if opcode = 0xC6 ∨ opcode = 0xC7 then .insertBranch
  else if opcode = 0xE0 then .endCondition
  else if opcode = 0xF0 then .terminator
  else if 0xF2 ≤ opcode ∧ opcode ≤ 0xF5 then .checkedAssembly
  else if opcode = 0xF6 then .search
  else .other opcode

/-- How many bytes follow the line of a code. -/
def payloadLength (kind : CodeKind) (operand : UInt32) : Nat :=
  match kind with
  | .writeString => roundUp operand.toNat 8
  | .serialWrite => 8
  | .assembly | .search => 8 * operand.toNat
  | .checkedAssembly => 8 * (operand >>> 16).toNat
  | _ => 0

end CodeKind

/-- Two words of a code list. -/
structure Line where
  head : UInt32
  operand : UInt32
  deriving DecidableEq, Repr

namespace Line

def bytes (line : Line) : Bytes :=
  wordBytes line.head ++ wordBytes line.operand

@[simp] theorem length_bytes (line : Line) : line.bytes.length = 8 := rfl

def opcode (line : Line) : UInt8 :=
  (line.head >>> 24).toUInt8

def kind (line : Line) : CodeKind :=
  .ofOpcode line.opcode

/-- The address a code is about, always in `0x80000000..0x82000000`. -/
def address (line : Line) : UInt32 :=
  0x80000000 ||| (line.head &&& 0x01FFFFFF)

/-- How many bytes follow the line if a code starts with it. -/
def payloadLength (line : Line) : Nat :=
  line.kind.payloadLength line.operand

/-- The length of a code that starts with the line. -/
def codeLength (line : Line) : Nat :=
  8 + line.payloadLength

/-- Takes a line off a byte string, if there are bytes enough. -/
def take? : Bytes → Option (Line × Bytes)
  | b0 :: b1 :: b2 :: b3 :: b4 :: b5 :: b6 :: b7 :: rest =>
    some (⟨joinBytes b0 b1 b2 b3, joinBytes b4 b5 b6 b7⟩, rest)
  | _ => none

theorem length_of_take? {bytes rest : Bytes} {line : Line} (taken : take? bytes = some (line, rest)) :
    bytes.length = rest.length + 8 := by
  unfold take? at taken
  split at taken
  · simp only [Option.some.injEq, Prod.mk.injEq] at taken
    simp [taken.2]
  · cases taken

end Line

end CubePatch
