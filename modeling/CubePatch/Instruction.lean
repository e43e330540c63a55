import CubePatch.Bytes
import CubePatch.Hexadecimal
import CubePatch.Word

/-!
# Instructions

The PowerPC instructions that matter when code is moved: the branches, and the immediate loads that
build an address out of two halves. Every other word is left undecoded.
-/
namespace CubePatch

inductive AddressMode where
  | absolute
  | relative
  deriving DecidableEq, Repr

/-- When a conditional branch is taken. -/
inductive BranchCondition where
  | decrementIfFalse
  | ifFalse
  | decrementIfTrue
  | ifTrue
  | decrementIfNotZero
  | decrementIfZero
  | always
  deriving DecidableEq, Repr

/-- The condition in bits 6 to 10 of a branch. Hint bits are ignored. -/
def BranchCondition.ofWord (word : UInt32) : BranchCondition :=
  let options := byteField word 6 10
  if options &&& 0b11110 = 0b00000 ∨ options &&& 0b11110 = 0b00010 then .decrementIfFalse
  else if options &&& 0b11100 = 0b00100 then .ifFalse
  else if options &&& 0b11110 = 0b01000 ∨ options &&& 0b11110 = 0b01010 then .decrementIfTrue
  else if options &&& 0b11100 = 0b01100 then .ifTrue
  else if options &&& 0b10110 = 0b10000 then .decrementIfNotZero
  else if options &&& 0b10110 = 0b10010 then .decrementIfZero
  else .always

inductive Instruction where
  /-- A branch to a fixed place, `b` and its forms. -/
  | branch (displacement : Int32) (mode : AddressMode) (link : Bool)
  /-- A conditional branch to a fixed place, `bc`. -/
  | branchIf (condition : BranchCondition) (bit : UInt8) (displacement : Int32)
      (mode : AddressMode) (link : Bool)
  /-- A branch through the link register, `bclr`. -/
  | branchToLink (condition : BranchCondition) (bit : UInt8) (link : Bool)
  /-- A branch through the count register, `bcctr`. -/
  | branchToCount (condition : BranchCondition) (bit : UInt8) (link : Bool)
  /-- Adds an immediate shifted by sixteen bits, `addis`; without a source it loads it. -/
  | addShifted (dest : UInt8) (source : Option UInt8) (value : Int16)
  /-- Adds an immediate, `addi`. -/
  | addImmediate (dest source : UInt8) (value : Int16)
  /-- Sets the bits of an immediate, `ori`. -/
  | orImmediate (source dest : UInt8) (value : UInt16)
  deriving DecidableEq, Repr

namespace Instruction

private def modeOf (word : UInt32) : AddressMode :=
  if isSet word 30 then .absolute else .relative

/-- The instruction a word stands for, if it is one of those above. -/
def decode? (word : UInt32) : Option Instruction :=
  let link := isSet word 31
  let condition := BranchCondition.ofWord word
  let bit := byteField word 11 15
  match (primaryOpcode word).toNat with
  | 18 => some (.branch (signedField word 6 29 <<< 2) (modeOf word) link)
  | 16 => some (.branchIf condition bit (signedField word 16 29 <<< 2) (modeOf word) link)
  | 19 =>
    match (extendedOpcode word).toNat with
    | 16 => some (.branchToLink condition bit link)
    | 528 => some (.branchToCount condition bit link)
    | _ => none
  | 15 =>
    let source := byteField word 11 15
    some (.addShifted (byteField word 6 10) (if source = 0 then none else some source)
      (signedHalfField word 16 31))
  | 14 =>
    some (.addImmediate (byteField word 6 10) (byteField word 11 15) (signedHalfField word 16 31))
  | 24 => some (.orImmediate (byteField word 6 10) (byteField word 11 15) (halfField word 16 31))
  | _ => none

/-- Where a displacement leads from `address`; sums wrap at the end of the address space. -/
def targetFrom (address : UInt32) (mode : AddressMode) (displacement : Int32) : UInt32 :=
  match mode with
  | .absolute => displacement.toUInt32
  | .relative => address + displacement.toUInt32

/-- The target of a branch to a fixed place that stands at `address`. -/
def target? (address : UInt32) : Instruction → Option UInt32
  | .branch displacement mode _ => some (targetFrom address mode displacement)
  | .branchIf _ _ displacement mode _ => some (targetFrom address mode displacement)
  | _ => none

def isBranch : Instruction → Bool
  | .branch .. | .branchIf .. | .branchToLink .. | .branchToCount .. => true
  | _ => false

/-- Whether this is a branch that cannot be moved as a plain one. The register branches count as
such even when they are always taken, because their target is not in the word. -/
def isConditional : Instruction → Bool
  | .branchIf .. | .branchToLink .. | .branchToCount .. => true
  | _ => false

theorem isBranch_of_isConditional (instruction : Instruction)
    (conditional : instruction.isConditional = true) : instruction.isBranch = true := by
  cases instruction <;> simp_all [isConditional, isBranch]

end Instruction

inductive DecodeError where
  | unknownInstruction (word : UInt32) (offset : Nat)
  | endOfInput (offset : Nat)
  deriving DecidableEq, Repr

def DecodeError.message : DecodeError → String
  | .unknownInstruction word offset =>
    "unhandled instruction " ++ hexWord word ++ " at offset " ++ hex offset
  | .endOfInput offset => "unexpected end of input at offset " ++ hex offset

/-- Decodes the word found at `offset` of some code. -/
def decodeWordAt (offset : Nat) (word : UInt32) : Except DecodeError Instruction :=
  match Instruction.decode? word with
  | some instruction => .ok instruction
  | none => .error (.unknownInstruction word offset)

/-- One step of a listing: what was found between two offsets. -/
structure ListingLine where
  start : Nat
  stop : Nat
  found : Except DecodeError Instruction

/-- Decodes word after word from `offset` on. -/
def listingFrom (offset : Nat) : Bytes → List ListingLine
  | first :: second :: third :: fourth :: rest =>
    ⟨offset, offset + 4, decodeWordAt offset (joinBytes first second third fourth)⟩ ::
      listingFrom (offset + 4) rest
  | _ => [⟨offset, offset, .error (.endOfInput offset)⟩]

/-- Decodes word after word. A word that is no known instruction is passed over, and the listing
ends with the end of the input, where one to three bytes may be left. -/
def listing (bytes : Bytes) : List ListingLine :=
  listingFrom 0 bytes

end CubePatch
