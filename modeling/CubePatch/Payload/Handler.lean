import CubePatch.Instruction.Encoding
import CubePatch.Payload.Error
import CubePatch.Settings

/-!
# The code handler

The handler is the program that runs the codes. It is shipped with the address it is made for in
front of it. Two places in it are filled in: the pair of instructions that loads the address of the
code list, and the slot in which the instruction replaced at the hook is carried out, followed by
the way back.
-/
namespace CubePatch

/-- A handler is at least this long, so that it has room for its code list pointer. -/
def minHandlerLength : Nat := 0x100

structure Handler where
  base : UInt32
  payload : Bytes
  minLength_le : minHandlerLength ≤ payload.length
  deriving DecidableEq

namespace Handler

def ofBytes : Bytes → Except PayloadError Handler
  | first :: second :: third :: fourth :: payload =>
    if enough : minHandlerLength ≤ payload.length then
      .ok ⟨joinBytes first second third fourth, payload, enough⟩
    else .error (.handlerTooShort payload.length)
  | bytes => .error (.handlerTooShort bytes.length)

def length (handler : Handler) : Nat :=
  handler.payload.length

/-- Where the hook branches to. -/
def entry (handler : Handler) : UInt32 :=
  handler.base + 0xA8

/-- Handlers below this length are the small variant. -/
def fullLength : Nat := 0x900

def variant (handler : Handler) : HandlerVariant :=
  if handler.length < fullLength then .mini else .full

/-- Replaces bytes of the handler. -/
def patch (handler : Handler) (offset : Nat) (data : Bytes) : Handler where
  base := handler.base
  payload := overwrite handler.payload offset data
  minLength_le := by simpa using handler.minLength_le

@[simp] theorem length_patch (handler : Handler) (offset : Nat) (data : Bytes) :
    (handler.patch offset data).length = handler.length := by
  simp [length, patch]

/-- Offset of the instruction that loads the upper half of the code list address. The lower half
follows in the next instruction; the halves themselves are the lower halves of the two words. -/
def pointerOffset : Nat := 0xF8

/-- The address of the code list, if the two words load one. -/
def codeListPointer? (handler : Handler) : Option UInt32 :=
  match Instruction.decode? (wordAt handler.payload pointerOffset),
    Instruction.decode? (wordAt handler.payload (pointerOffset + 4)) with
  | some (.addShifted _ none upper), some (.orImmediate _ _ lower) =>
    some (joinPlain upper.toUInt16 lower)
  | _, _ => none

/-- Makes the two words load another address, whatever instructions they are. -/
def setCodeListPointer (handler : Handler) (address : UInt32) : Handler :=
  (handler.patch (pointerOffset + 2) (halfBytes (upperHalf address))).patch (pointerOffset + 6)
    (halfBytes (lowerHalf address))

/-- The word that marks the slot for the replaced instruction. -/
def slotMark : UInt32 := 0x00DEDEDE

/-- The offset of the slot: the first aligned mark, if it has another word behind it. -/
def slot? (handler : Handler) : Option Nat :=
  match findWord? slotMark handler.payload with
  | some offset => if offset + 8 ≤ handler.length then some offset else none
  | none => none

/-- The address of an offset in the handler. -/
def addressOf (handler : Handler) (offset : Nat) : UInt32 :=
  handler.base + UInt32.ofNat offset

/-- The word that does at `target` what `replaced` does at `source`: a return is the same anywhere,
a plain branch is aimed anew. Nothing else can be moved. -/
def movedWord? (source target replaced : UInt32) : Option UInt32 :=
  if replaced = returnWord then some replaced
  else
    match Instruction.decode? replaced with
    | some (.branch displacement mode link) =>
      some (branchWord target (Instruction.targetFrom source mode displacement) link)
    | _ => none

/-- A change of a handler. Where it fails, the handler is left as the steps before the failure made
it. -/
abbrev Change := EStateM PayloadError Handler

/-- Moves the instruction replaced at `hook` into the slot of the handler and lets the handler
return to the instruction behind it. The way back is written last, from an address of its own. -/
def trampoline (hook replaced : UInt32) : Change Unit := fun handler =>
  match handler.slot? with
  | none => .error .missingVariableSlot handler
  | some offset =>
    let slot := handler.addressOf offset
    match movedWord? hook slot replaced with
    | none => .error (.unmovableHook replaced) handler
    | some moved =>
      let filled := handler.patch offset (wordBytes moved)
      match checkedSum slot 4 with
      | .error cause => .error (.overflow cause) filled
      | .ok back =>
        .ok () (filled.patch (offset + 4) (wordBytes (branchWord back (hook + 4) false)))

/-- The handler with an instruction moved into it, if it takes one. -/
def withTrampoline (handler : Handler) (hook replaced : UInt32) : Except PayloadError Handler :=
  match trampoline hook replaced handler with
  | .ok () moved => .ok moved
  | .error fault _ => .error fault

end Handler

end CubePatch
