import CubePatch.Image

/-!
# Free gaps

The search for an address where some bytes can be placed without touching a section. A candidate
that meets a section moves on to the end of that section, so the candidate grows with every step and
the search ends at the top of the address space. An address that was skipped meets the section it
was skipped for, which is why the first candidate that fits is also the least.
-/
namespace CubePatch

/-- One past the last address. -/
def addressTop : Nat := 0x100000000

/-- The least candidate from `candidate` on at which `length` bytes meet no section. -/
def gapFrom? (sections : List Section) (length candidate : Nat) : Option Nat :=
  if _fits : candidate + max length 1 ≤ addressTop then
    match _hit : sections.find? (·.Meets candidate length) with
    | some area => gapFrom? sections length area.stop
    | none => some candidate
  else none
termination_by addressTop - candidate
decreasing_by
  have meets : area.Meets candidate length := by simpa using List.find?_some _hit
  have before := meets.2.1
  have bound : 1 ≤ max length 1 := Nat.le_max_right _ _
  omega

/-- The least address at or after `start` with room for `length` bytes between the sections. -/
def Image.findGap (image : Image) (start length : UInt32) : Except ImageError UInt32 :=
  match gapFrom? image.sections length.toNat start.toNat with
  | some address => .ok (UInt32.ofNat address)
  | none => .error (.noFreeGap start length)

end CubePatch
