import CubePatch.Build.Error
import CubePatch.Build.Report
import CubePatch.Cipher
import CubePatch.Cipher.KeyDraw
import CubePatch.Payload.Bootstrap
import CubePatch.Payload.Handler
import CubePatch.Payload.Placement
import CubePatch.Payload.Protection

/-!
# Patching an image

Installs codes into an image: absorbs what can be absorbed, and adds what is left together with the
handler, and with a loader where one is needed, as one more section that a branch at the hook leads
to. If no code is left, nothing is added and no hook is placed.

The gap for the section is looked for before codes are absorbed. What is added afterwards is never
larger than the gap, since absorbing only takes codes away.
-/
namespace CubePatch

/-- Allocations above this are known to crash games. -/
def allocationCrashLimit : UInt32 := 0x70000

/-- Allocations above this are worth a remark. -/
def allocationHintLimit : UInt32 := 0x40000

/-- Remarks on the bytes reserved for a code list of the given size. -/
def allocationEvents (allocation : UInt32) (codesLength : Nat) : List Event :=
  (if allocation.toNat < codesLength then [.allocationTooSmall allocation codesLength] else []) ++
    if allocationCrashLimit < allocation then [.allocationCrashes allocation allocationCrashLimit]
    else if allocationHintLimit < allocation then [.allocationLarge allocation allocationHintLimit]
    else []

/-- The sections of an image and its other header fields. -/
def Image.events (image : Image) : List Event :=
  image.sections.map .sectionListed ++
    [.imageSummary image.bssAddress image.bssSize image.entryPoint image.file.size]

/-- The bytes of a section to be added, and where. -/
structure Payload where
  address : UInt32
  bytes : Bytes
  allocation : UInt32
  deriving DecidableEq, Repr

/-- Adds the protection code if it is asked for, and finds the address of the loader if there is
one. -/
def prepare (image : Image) (codes : CodeList) (handler : Handler) (loader : Bootstrap)
    (settings : PatchSettings) (placement : Placement) :
    Logged BuildError (CodeList × Option UInt32) :=
  match placement with
  | .legacy => do
    .tellIf settings.initAddress.isSome .initIgnored
    .tellIf settings.protect .protectionSkipped
    return (codes, none)
  | .arena => do
    let codes ←
      if settings.protect then (codes.readBefore protectionCode).mapError .codes else pure codes
    let length := UInt32.ofNat (loader.length + handler.length + codes.size)
    let address ← (image.chooseInit settings.initAddress length).mapError .payload
    return (codes, some address)

/-- Absorbs codes if that is asked for. -/
def absorbIfAsked (image : Image) (codes : CodeList) (settings : PatchSettings) :
    Logged BuildError (Image × CodeList × Option AbsorptionCounts) :=
  if settings.optimize then do
    let absorption := codes.absorb image
    .tellAll absorption.events
    match absorption.fault with
    | some fault => .fail (.absorption fault)
    | none =>
      .tell (.codesOptimized absorption.counts)
      return (absorption.image, absorption.remaining, some absorption.counts)
  else return (image, codes, none)

/-- The address of the hook, the word that stands there, and the image after looking at it. -/
def chooseHook (image : Image) (settings : PatchSettings) :
    Logged BuildError (UInt32 × UInt32 × Image) :=
  match settings.hookAddress with
  | some given => do
    let address ← .ofExcept ((checkAddress .hook given).mapError .payload)
    let (word, image) ← (Logged.ofEdit (Image.verifyHook address image)).mapError .hook
    return (address, word, image)
  | none => do
    let site ← .ofExcept ((image.locateHook settings.hookKind).mapError .hook)
    .tell (.hookFound settings.hookKind site.slot site.address)
    return (site.address, returnWord, image)

/-- Moves the replaced instruction into the handler. -/
def installTrampoline (handler : Handler) (hook replaced : UInt32) : Logged BuildError Handler := do
  let moved ← .ofExcept ((handler.withTrampoline hook replaced).mapError .payload)
  .tellAll (handler.slot?.toList.map fun slot =>
    .trampolineBuilt (handler.addressOf slot) (hook + 4))
  return moved

/-- Loader, handler and codes for a gap. Without encryption the key is zero, so that equal builds
give equal files. -/
def arenaPayload (codes : CodeList) (handler : Handler) (loader : Bootstrap)
    (settings : PatchSettings) (hook entryPoint init : UInt32) : Logged BuildError Payload := do
  let allocation :=
    settings.allocation.getD (defaultAllocation handler.length codes.size)
  let key := if settings.encrypt then drawKey settings.seed else 0
  .tellIf settings.encrypt .codesEncrypted
  let values : BootstrapValues :=
    { initAddress := init
      allocation := allocation
      handlerLength := UInt32.ofNat handler.length
      codesLength := UInt32.ofNat codes.size
      hookAddress := hook
      encrypted := settings.encrypt
      key := scrambleKey key
      entryPoint := entryPoint }
  let held := if settings.encrypt then xorWords key codes.bytes else codes.bytes
  return ⟨init, loader.patch values ++ handler.payload ++ held, allocation⟩

/-- Handler and codes for low memory, with the handler's pointer aimed at the codes behind it. -/
def legacyPayload (codes : CodeList) (handler : Handler) (settings : PatchSettings) :
    Logged BuildError Payload := do
  .tellIf settings.encrypt .encryptionSkipped
  .tellIf settings.allocation.isSome .allocationIgnored
  let place := handler.addressOf handler.length
  match handler.codeListPointer? with
  | some old => .tell (.codesMoved old place)
  | none => .tell .pointerMissing
  let aimed := handler.setCodeListPointer place
  return ⟨handler.base, aimed.payload ++ codes.bytes, legacyAllocation handler.base handler.length⟩

/-- Installs codes into an image. -/
def patchImage (image : Image) (codes : CodeList) (handler : Handler) (loader : Bootstrap)
    (settings : PatchSettings) : Logged BuildError (Image × BuildReport) := do
  let entryPoint := image.entryPoint
  let placement := settings.placement.resolve handler.base handler.length codes.size
  let (codes, init) ← prepare image codes handler loader settings placement
  .tell (.placementChosen placement)
  let (image, codes, optimized) ← absorbIfAsked image codes settings
  let report : BuildReport :=
    { placement := placement
      gameEntry := entryPoint
      initAddress := none
      allocation := 0
      codesLength := codes.size
      hookAddress := none
      variant := handler.variant
      optimized := optimized
      area := none
      textSections := image.text.length
      dataSections := image.data.length }
  if codes.isEmpty then
    .tellAll image.events
    return (image, report)
  .ofExcept (image.checkFreeSlot.mapError .payload)
  let (hook, replaced, image) ← chooseHook image settings
  let handler ← installTrampoline handler hook replaced
  let payload ←
    match init with
    | some address => arenaPayload codes handler loader settings hook entryPoint address
    | none => legacyPayload codes handler settings
  let (area, image) ←
    (Logged.ofEdit (Image.install payload.bytes payload.address image)).mapError .payload
  let image :=
    match init with
    | some address => image.setEntryPoint address
    | none => image
  let ((), image) ←
    (Logged.ofEdit (Image.insertBranch handler.entry hook false image)).mapError .image
  .tellAll (allocationEvents payload.allocation codes.size)
  .tellAll image.events
  return (image, { report with
    initAddress := init
    allocation := payload.allocation
    hookAddress := some hook
    area := some area
    textSections := image.text.length
    dataSections := image.data.length })

end CubePatch
