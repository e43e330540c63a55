import CubePatch.Bootstrap.Token
import CubePatch.File.Path
import CubePatch.Hexadecimal
import CubePatch.Section
import CubePatch.Settings
import CubePatch.Text.Padding

/-!
# Events of a run

What a run tells its user on the way. An event is a fact; its wording and its level are given here
and nowhere else.
-/
namespace CubePatch

/-- How urgent an event is, from the most urgent on. -/
inductive Level where
  | warn
  | info
  | debug
  | trace
  deriving DecidableEq, Repr

namespace Level

/-- Smaller is more urgent. -/
def rank : Level → Nat
  | .warn => 1
  | .info => 2
  | .debug => 3
  | .trace => 4

def name : Level → String
  | .warn => "WARN"
  | .info => "INFO"
  | .debug => "DEBUG"
  | .trace => "TRACE"

end Level

/-- How many codes were written into the image, left because they lie outside of it, and left for
other reasons. -/
structure AbsorptionCounts where
  applied : Nat
  unmapped : Nat
  kept : Nat
  deriving DecidableEq, Repr

inductive Event where
  -- Reading a code list
  | bytesIgnored (count : Nat)
  | legacyEncoding
  | fileSkipped (path : Path)
  | codeListRead (path : Path) (size : Nat)
  -- Writing codes into the image
  | codeApplied (opcode : UInt8) (address : UInt32)
  | codeUnmapped (opcode : UInt8) (address : UInt32)
  | codesCounted (counts : AbsorptionCounts)
  | codesOptimized (counts : AbsorptionCounts)
  -- Placing handler and codes
  | tokensFound (tokens : List (Nat × Token))
  | initIgnored
  | protectionSkipped
  | gapFound (length start address : UInt32)
  | placementChosen (placement : Placement)
  | hookFound (kind : HookKind) (slot : Nat) (address : UInt32)
  | trampolineBuilt (slot target : UInt32)
  | codesEncrypted
  | encryptionSkipped
  | allocationIgnored
  | codesMoved (old new : UInt32)
  | pointerMissing
  | allocationTooSmall (allocation : UInt32) (size : Nat)
  | allocationCrashes (allocation limit : UInt32)
  | allocationLarge (allocation limit : UInt32)
  -- The outcome
  | sectionListed (area : Section)
  | imageSummary (bssAddress bssSize entry : UInt32) (size : Nat)
  | fileWritten (path : Path) (size : Nat)
  | allAbsorbed
  | startMoved (address : UInt32)
  | sizesReported (allocation : UInt32) (size : Nat)
  | hooked (address : UInt32)
  | placementReported (placement : Placement)
  | entryReported (address : UInt32)
  | variantReported (variant : HandlerVariant)
  | payloadInstalled (area : Section)
  | slotsReported (text data : Nat)
  | patched (path : Path)
  deriving DecidableEq, Repr

/-- A token and its offset. -/
private def tokenText (entry : Nat × Token) : String :=
  "(" ++ String.ofList (hexDigits entry.1) ++ ", " ++ entry.2.name ++ ")"

namespace Event

def level : Event → Level
  | .bytesIgnored .. | .fileSkipped .. | .initIgnored | .protectionSkipped | .encryptionSkipped
  | .allocationIgnored | .pointerMissing | .allocationTooSmall .. | .allocationCrashes .. => .warn
  | .codesOptimized .. | .allocationLarge .. | .allAbsorbed | .startMoved .. | .sizesReported ..
  | .hooked .. | .patched .. => .info
  | .codeApplied .. | .tokensFound .. | .sectionListed .. | .imageSummary .. => .trace
  | _ => .debug

def message : Event → String
  | .bytesIgnored count => "ignoring " ++ hex count ++ " bytes after the code list terminator"
  | .legacyEncoding => "code list is not valid UTF-8, decoding as Windows-1252"
  | .fileSkipped path => "skipping " ++ path.text ++ ": not a .txt or .gct file"
  | .codeListRead path size => "code list " ++ path.text ++ " is " ++ hex size ++ " bytes"
  | .codeApplied opcode address =>
    "applied " ++ hexByteUpper opcode ++ " record at " ++ hexWord address
  | .codeUnmapped opcode address =>
    "keeping " ++ hexByteUpper opcode ++ " record, " ++ hexWord address ++ " is outside the DOL"
  | .codesCounted counts =>
    "optimized code list: " ++ toString counts.applied ++ " applied, " ++
      toString counts.unmapped ++ " unmapped, " ++ toString counts.kept ++ " kept"
  | .codesOptimized counts =>
    "optimized code list: " ++ toString counts.applied ++ " records applied, " ++
      toString counts.unmapped ++ " outside the DOL, " ++ toString counts.kept ++ " kept"
  | .tokensFound tokens =>
    "loader tokens: [" ++ ", ".intercalate (tokens.map tokenText) ++ "]"
  | .initIgnored => "ignoring init address, LEGACY placement has no loader"
  | .protectionSkipped =>
    "not protecting codes, LEGACY placement keeps them where the stub scans"
  | .gapFound length start address =>
    "first " ++ hex length.toNat ++ " byte gap after " ++ hexWord start ++ " is at " ++
      hexWord address
  | .placementChosen placement => "using " ++ placement.name ++ " placement"
  | .hookFound kind slot address =>
    "found " ++ kind.name ++ " hook in text" ++ toString slot ++ " at " ++ hexWord address
  | .trampolineBuilt slot target =>
    "trampoline at " ++ hexWord slot ++ " returns to " ++ hexWord target
  | .codesEncrypted => "encrypted code list"
  | .encryptionSkipped =>
    "not encrypting codes, LEGACY placement has no loader to decrypt them"
  | .allocationIgnored => "ignoring allocation, LEGACY placement uses the space below 0x80003000"
  | .codesMoved old new => "moving code list from " ++ hexWord old ++ " to " ++ hexWord new
  | .pointerMissing => "code handler does not load its code list with lis/ori"
  | .allocationTooSmall allocation size =>
    "allocated code space " ++ hex allocation.toNat ++ " is smaller than the code list (" ++
      hex size ++ " bytes)"
  | .allocationCrashes allocation limit =>
    "allocation " ++ hex allocation.toNat ++ " is above " ++ hex limit.toNat ++
      " and will crash certain games"
  | .allocationLarge allocation limit =>
    "allocation " ++ hex allocation.toNat ++ " is above " ++ hex limit.toNat ++
      ", lower it if the game crashes"
  | .sectionListed area =>
    area.kind.name ++ padRight 2 (toString area.slot) ++ " offset " ++
      hexWide 6 area.fileOffset.toNat ++ " address " ++ hexWord area.loadAddress ++ " size " ++
      hexWide 6 area.size.toNat
  | .imageSummary bssAddress bssSize entry size =>
    "bss " ++ hexWord bssAddress ++ " size " ++ hex bssSize.toNat ++ ", entry point " ++
      hexWord entry ++ ", file length " ++ hex size
  | .fileWritten path size => "wrote " ++ hex size ++ " bytes to " ++ path.text
  | .allAbsorbed => "all codes have been pre-patched into the DOL"
  | .startMoved address => "start of game modified to address " ++ hexWord address
  | .sizesReported allocation size =>
    "allocation is " ++ hex allocation.toNat ++ "; code list size is " ++ hex size
  | .hooked address => "code handler hooked at " ++ hexWord address
  | .placementReported placement => "placement: " ++ placement.name
  | .entryReported address => "original entry point: " ++ hexWord address
  | .variantReported variant => "code handler variant: " ++ variant.name
  | .payloadInstalled area =>
    "payload installed as " ++ area.kind.name ++ " slot " ++ toString area.slot ++
      " at file offset " ++ hex area.fileOffset.toNat
  | .slotsReported text data =>
    toString text ++ " of " ++ toString SectionKind.text.capacity ++ " text sections and " ++
      toString data ++ " of " ++ toString SectionKind.data.capacity ++ " data sections are used"
  | .patched path => "patched DOL written to " ++ path.text

end Event

end CubePatch
