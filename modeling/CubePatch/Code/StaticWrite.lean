import CubePatch.CodeList
import CubePatch.Instruction.Encoding

/-!
# Static writes

Some codes only write memory, and always write the same. What such a code does is a list of writes,
made in order. A serial write repeats one write while its address and its value advance by fixed
steps; both sums wrap.
-/
namespace CubePatch

/-- Bytes written from an address on. -/
structure Write where
  address : UInt32
  bytes : Bytes
  deriving DecidableEq, Repr

/-- A serial write whose values have no known size. -/
structure SerialFault where
  address : UInt32
  size : Nat
  deriving DecidableEq, Repr

def SerialFault.message (fault : SerialFault) : String :=
  "serial write at " ++ hexWord fault.address ++ " has size type " ++ toString fault.size ++
    ", expected 0, 1 or 2"

/-- What a serial write repeats: sizes 0, 1 and 2 stand for a byte, a halfword and a word. -/
structure Serial where
  size : Nat
  /-- How many writes follow the first one. -/
  repeats : Nat
  addressStep : UInt32
  valueStep : UInt32
  deriving DecidableEq, Repr

namespace Serial

/-- Reads the two words behind the first line of a serial write. -/
def ofPayload (payload : Bytes) : Serial :=
  let control := wordAt payload 0
  { size := (control >>> 28).toNat
    repeats := ((control >>> 16) &&& 0xFFF).toNat
    addressStep := control &&& 0xFFFF
    valueStep := wordAt payload 4 }

/-- The bytes of a value of the given size. -/
def valueBytes? (size : Nat) (value : UInt32) : Option Bytes :=
  match size with
  | 0 => some [value.toUInt8]
  | 1 => some (halfBytes value.toUInt16)
  | 2 => some (wordBytes value)
  | _ => none

/-- `count` writes from an address and a value on. -/
def writesFrom (serial : Serial) (count : Nat) (address value : UInt32) : List Write :=
  match count with
  | 0 => []
  | count + 1 =>
    ⟨address, (valueBytes? serial.size value).getD []⟩ ::
      serial.writesFrom count (address + serial.addressStep) (value + serial.valueStep)

@[simp] theorem length_writesFrom (serial : Serial) (count : Nat) (address value : UInt32) :
    (serial.writesFrom count address value).length = count := by
  induction count generalizing address value with
  | zero => rfl
  | succ count ih => simp [writesFrom, ih]

end Serial

namespace Code

/-- How often a fill repeats its value. -/
def fillCount (code : Code) : Nat :=
  (code.operand >>> 16).toNat + 1

/-- The writes of a code, or nothing if it does more than write. -/
def staticWrites? (code : Code) : Except SerialFault (Option (List Write)) :=
  let single (bytes : Bytes) := Except.ok (some [⟨code.address, bytes⟩])
  match code.kind with
  | .fillBytes => single (List.replicate code.fillCount code.operand.toUInt8)
  | .fillHalves => single (List.replicate code.fillCount (halfBytes code.operand.toUInt16)).flatten
  | .writeWord => single (wordBytes code.operand)
  | .writeString => single (code.payload.take code.operand.toNat)
  | .serialWrite =>
    let serial := Serial.ofPayload code.payload
    if serial.size ≤ 2 then
      .ok (some (serial.writesFrom (serial.repeats + 1) code.address code.operand))
    else .error ⟨code.address, serial.size⟩
  | .insertBranch => single (wordBytes (branchWord code.address code.operand false))
  | _ => .ok none

end Code

end CubePatch
