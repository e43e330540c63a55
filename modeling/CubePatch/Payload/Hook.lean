import CubePatch.Image.Cursor
import CubePatch.Settings

/-!
# Hooks

A hook is the instruction whose place a branch to the code handler takes. It is found by the bytes
of a routine that every game has: the return that ends the routine is hooked. Each routine is known
in two forms, one per console, and within a section the older one is looked for first. A hook may
also be given by its address, if the instruction there can be carried out elsewhere.
-/
namespace CubePatch

inductive HookError where
  | notFound (kind : HookKind)
  | notReturn (address word : UInt32)
  | conditionalBranch (address : UInt32)
  /-- The address of the hook is past the last one. -/
  | overflow (cause : Overflow)
  | image (fault : ImageError)
  deriving DecidableEq, Repr

def HookError.message : HookError → String
  | .notFound kind => "no " ++ kind.name ++ " hook signature found in any text section"
  | .notReturn address word =>
    "hook address " ++ hexWord address ++ " holds " ++ hexWord word ++
      ", expected blr (0x4e800020)"
  | .conditionalBranch address => "hook address " ++ hexWord address ++ " is a conditional branch"
  | .overflow cause => cause.message
  | .image fault => fault.message

/-- The bytes by which a routine is known, on the older console and on the newer one. -/
def HookKind.signatures : HookKind → List Bytes
  | .video =>
    [[0x7C, 0x03, 0x00, 0x34, 0x38, 0x83, 0x00, 0x20, 0x54, 0x85, 0x08, 0x3C, 0x7C, 0x7F, 0x2A,
        0x14, 0xA0, 0x03, 0x00, 0x00, 0x7C, 0x7D, 0x2A, 0x14, 0x20, 0xA4, 0x00, 0x3F, 0xB0, 0x03,
        0x00, 0x00],
      [0x7C, 0xE3, 0x3B, 0x78, 0x38, 0x87, 0x00, 0x34, 0x38, 0xA7, 0x00, 0x38, 0x38, 0xC7, 0x00,
        0x4C]]
  | .graphics =>
    [[0x38, 0x00, 0x00, 0x61, 0x3C, 0xA0, 0xCC, 0x01, 0x3C, 0x80, 0x45, 0x00, 0x98, 0x05, 0x80,
        0x00],
      [0x3C, 0xA0, 0xCC, 0x01, 0x38, 0x00, 0x00, 0x61, 0x3C, 0x80, 0x45, 0x00, 0x98, 0x05, 0x80,
        0x00]]
  | .controller =>
    [[0x3A, 0xB5, 0x00, 0x01, 0x2C, 0x15, 0x00, 0x04, 0x3B, 0x18, 0x00, 0x0C, 0x3B, 0xFF, 0x00,
        0x0C],
      [0x3A, 0xB5, 0x00, 0x01, 0x3A, 0x73, 0x00, 0x0C, 0x2C, 0x15, 0x00, 0x04, 0x3B, 0x18, 0x00,
        0x0C]]

/-- The offset of a routine in some code. -/
def HookKind.routine? (kind : HookKind) (code : Bytes) : Option Nat :=
  kind.signatures.findSome? fun signature => findPattern? signature code

/-- The offset of the first return behind the start of a routine, counted in whole instructions. -/
def HookKind.return? (kind : HookKind) (code : Bytes) : Option Nat :=
  match kind.routine? code with
  | none => none
  | some start => (findWord? returnWord (code.drop start)).map (start + ·)

/-- A hook that was found in a text section. -/
structure HookSite where
  slot : Nat
  address : UInt32
  deriving DecidableEq, Repr

/-- The hook at an offset of a section, if there is an address for it. -/
def HookSite.inSection (area : Section) (offset : Nat) : Except HookError HookSite :=
  match checkedSum area.loadAddress (UInt32.ofNat offset) with
  | .ok address => .ok ⟨area.slot, address⟩
  | .error cause => .error (.overflow cause)

namespace Image

/-- The return that ends a routine in a section. -/
def hookIn? (image : Image) (kind : HookKind) (area : Section) :
    Option (Except HookError HookSite) :=
  (kind.return? (image.sectionBytes area)).map (HookSite.inSection area)

/-- Searches the text sections in order for the return that ends a routine. A section in which the
routine has no return is passed over. -/
def locateHook (image : Image) (kind : HookKind) : Except HookError HookSite :=
  match image.text.findSome? (image.hookIn? kind) with
  | some found => found
  | none => .error (.notFound kind)

/-- Checks a hook given by its address and gives the word that stands there. -/
def verifyHook (address : UInt32) : Edit HookError UInt32 := do
  let word ← EStateM.adaptExcept .image do
    let _ ← seek address
    readWord
  if word = returnWord then return word
  fun image =>
    match branchAt address image with
    | .ok branch image =>
      if branch.conditional then .error (.conditionalBranch address) image else .ok word image
    | .error (.notABranch address word) image => .error (.notReturn address word) image
    | .error fault image => .error (.image fault) image

end Image

end CubePatch
