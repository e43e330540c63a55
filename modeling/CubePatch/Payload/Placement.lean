import CubePatch.Image.Append
import CubePatch.Image.Gap
import CubePatch.Log.Logged
import CubePatch.Payload.Error

/-!
# Placing the payload

Handler and codes go either to the handler's own address, in the low memory that games leave free, or
into a gap between the sections of the image together with a loader. Sums of a base and lengths are
natural numbers; what a loader or a handler computes is a word and wraps.
-/
namespace CubePatch

/-- End of the low memory in which a handler and its codes have to fit. -/
def legacyLimit : UInt32 := 0x80003000

def memoryStart : UInt32 := 0x80000000

/-- One past the end of main memory. -/
def memoryStop : UInt32 := 0x81800000

/-- Without a choice, low memory is used if everything fits into it. -/
def PlacementChoice.resolve (choice : PlacementChoice) (base : UInt32)
    (handlerLength codesLength : Nat) : Placement :=
  match choice with
  | .legacy => .legacy
  | .arena => .arena
  | .automatic =>
    if base.toNat + handlerLength + codesLength ≤ legacyLimit.toNat then .legacy else .arena

def checkAddress (role : AddressRole) (address : UInt32) : Except PayloadError UInt32 :=
  if memoryStart ≤ address ∧ address < memoryStop then .ok address
  else .error (.addressOutOfRange role address)

/-- Bytes reserved if the user does not say how many: handler and codes, in units of eight. -/
def defaultAllocation (handlerLength codesLength : Nat) : UInt32 :=
  UInt32.ofNat (roundUp (handlerLength + codesLength) 8)

/-- What low memory has left for codes behind a handler. -/
def legacyAllocation (base : UInt32) (handlerLength : Nat) : UInt32 :=
  let used := base + UInt32.ofNat handlerLength
  if used ≤ legacyLimit then legacyLimit - used else 0

namespace Image

/-- The middle of the zeroed memory of the game, down to a multiple of 256. -/
def gapStart (image : Image) : UInt32 :=
  (image.bssAddress + image.bssSize / 2) &&& 0xFFFFFF00

/-- The address of the loader: the given one if it is free, or else the first gap of `length` bytes
behind the middle of the zeroed memory. -/
def chooseInit (image : Image) (given : Option UInt32) (length : UInt32) :
    Logged PayloadError UInt32 :=
  match given with
  | some address => .ofExcept do
    let address ← checkAddress .init address
    match image.resolve address with
    | .ok _ => .error (.initAddressTaken address)
    | .error _ => .ok address
  | none => do
    let address ← .ofExcept ((image.findGap image.gapStart length).mapError .image)
    .tell (.gapFound length image.gapStart address)
    .ofExcept (checkAddress .init address)

/-- Fails if no slot is left for another section. -/
def checkFreeSlot (image : Image) : Except PayloadError Unit :=
  if image.freeSlots .text + image.freeSlots .data = 0 then .error .noFreeSections else .ok ()

/-- Adds a payload as a text section, or as a data section once all text slots are used. -/
def install (payload : Bytes) (address : UInt32) : Edit PayloadError Section := fun image =>
  match append .text payload address image with
  | .ok area image => .ok area image
  | .error (.sectionCountFull _) image =>
    match append .data payload address image with
    | .ok area image => .ok area image
    | .error (.sectionCountFull _) image => .error .noFreeSections image
    | .error fault image => .error (.image fault) image
  | .error fault image => .error (.image fault) image

end Image

end CubePatch
