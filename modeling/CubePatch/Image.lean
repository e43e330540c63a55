import CubePatch.Buffer
import CubePatch.Hexadecimal
import CubePatch.Section

/-!
# Executable images

An image is an executable file, held in a buffer, together with the sections its header listed when
it was opened and those added since. The header decides: sections are read from it once, and an
image that is opened and written back without an edit keeps every byte.

A slot with a zero file offset ends the list of its kind; whatever the header holds behind that slot
is neither looked at nor changed.
-/
namespace CubePatch

/-- Length of the header in front of the first section. -/
def headerSize : Nat := 0x100

/-- What is wrong with a header. -/
inductive HeaderFault where
  | shortFile (fileSize : Nat)
  | outsideFile (area : Section) (fileSize : Nat)
  | overlap (first second : Section)
  deriving DecidableEq, Repr

def HeaderFault.message : HeaderFault → String
  | .shortFile fileSize =>
    "file is " ++ hex fileSize ++ " bytes, smaller than the " ++ hex headerSize ++ " byte header"
  | .outsideFile area fileSize =>
    area.kind.name ++ " section in slot " ++ toString area.slot ++ " spans file bytes " ++
      hex area.fileOffset.toNat ++ ".." ++ hex area.fileStop ++ ", outside of the " ++
      hex fileSize ++ " byte file"
  | .overlap first second =>
    "sections in slots " ++ toString first.slot ++ " and " ++ toString second.slot ++
      " overlap at " ++ hexWord (max first.loadAddress second.loadAddress)

inductive ImageError where
  | malformedHeader (fault : HeaderFault)
  | unmappedAddress (address : UInt32)
  | sectionOverflow (address : UInt32) (length stop : Nat)
  | sectionCountFull (kind : SectionKind)
  | sectionOverlap (address : UInt32) (size : Nat)
  | noFreeGap (start length : UInt32)
  | notABranch (address word : UInt32)
  /-- An access was not made, since an address of it could not be computed. -/
  | overflow (cause : Overflow)
  deriving DecidableEq, Repr

def ImageError.message : ImageError → String
  | .malformedHeader fault => "malformed DOL header: " ++ fault.message
  | .unmappedAddress address => "address " ++ hexWord address ++ " is not inside any section"
  | .sectionOverflow address length stop =>
    "access of " ++ hex length ++ " bytes at " ++ hexWord address ++
      " crosses the section end at " ++ hexWide 8 stop
  | .sectionCountFull kind =>
    "all " ++ toString kind.capacity ++ " " ++ kind.name ++ " section slots are in use"
  | .sectionOverlap address size =>
    "new section at " ++ hexWord address ++ " (size " ++ hex size ++
      ") overlaps an existing section"
  | .noFreeGap start length =>
    "no free " ++ hex length.toNat ++ " byte gap at or after " ++ hexWord start
  | .notABranch address word =>
    "instruction " ++ hexWord word ++ " at " ++ hexWord address ++ " is not a branch"
  | .overflow cause => cause.message

/-- A position in an image: an address, and the section it was found in when it was set. -/
structure Cursor where
  address : UInt32
  home : Option Section
  deriving DecidableEq, Repr

structure Image where
  file : Buffer
  text : List Section
  data : List Section
  cursor : Cursor
  deriving DecidableEq, Repr

/-- An edit of an image. Where it fails, the image is left as the steps before the failure made
it. -/
abbrev Edit (ε : Type) := EStateM ε Image

namespace Header

/-! Where the header keeps what. Each table has one word per slot. -/

def offsetField (slot : Nat) : Nat := slot * 4

def addressField (slot : Nat) : Nat := 0x48 + slot * 4

def sizeField (slot : Nat) : Nat := 0x90 + slot * 4

def bssAddressField : Nat := 0xD8

def bssSizeField : Nat := 0xDC

def entryField : Nat := 0xE0

/-- The section a header describes in a slot. -/
def sectionAt (header : Bytes) (kind : SectionKind) (slot : Nat) : Section where
  kind := kind
  slot := slot
  fileOffset := wordAt header (offsetField slot)
  loadAddress := wordAt header (addressField slot)
  size := wordAt header (sizeField slot)

/-- The used sections of a kind: those before the first slot with a zero file offset. -/
def usedSections (header : Bytes) (kind : SectionKind) : List Section :=
  (kind.slots.map (sectionAt header kind)).takeWhile (·.fileOffset ≠ 0)

end Header

/-- The first two non-empty sections that share an address, in the order of the list. -/
def firstOverlap? : List Section → Option (Section × Section)
  | [] => none
  | first :: rest =>
    match rest.find? fun second =>
        first.Meets second.loadAddress.toNat second.size.toNat ∧ second.size ≠ 0 with
    | some second => some (first, second)
    | none => firstOverlap? rest

/-- Checks the used sections of a file: each lies behind the header and within the file, and no two
of them share an address. -/
def checkSections (fileSize : Nat) (sections : List Section) : Except HeaderFault Unit :=
  match sections.find? fun area => area.fileOffset.toNat < headerSize ∨ fileSize < area.fileStop with
  | some area => .error (.outsideFile area fileSize)
  | none =>
    match firstOverlap? sections with
    | some (first, second) => .error (.overlap first second)
    | none => .ok ()

/-- The section that comes first in the file; of two at the same offset, the first of the list. -/
def firstInFile? : List Section → Option Section
  | [] => none
  | area :: rest =>
    match firstInFile? rest with
    | none => some area
    | some other => if other.fileOffset < area.fileOffset then some other else some area

namespace Image

/-- The bytes of the file. -/
def bytes (image : Image) : Bytes :=
  image.file.toList

@[simp] theorem length_bytes (image : Image) : image.bytes.length = image.file.size := rfl

/-- An image with a zeroed header and no sections. -/
def empty : Image where
  file := Array.replicate headerSize 0
  text := []
  data := []
  cursor := ⟨0, none⟩

/-- All used sections, text before data. -/
def sections (image : Image) : List Section :=
  image.text ++ image.data

def sectionsOf (image : Image) : SectionKind → List Section
  | .text => image.text
  | .data => image.data

/-- Opens a file. The cursor starts at the section that comes first in the file. -/
def ofBytes (bytes : Bytes) : Except ImageError Image :=
  if bytes.length < headerSize then .error (.malformedHeader (.shortFile bytes.length))
  else
    let text := Header.usedSections bytes .text
    let data := Header.usedSections bytes .data
    match checkSections bytes.length (text ++ data) with
    | .error fault => .error (.malformedHeader fault)
    | .ok () =>
      let cursor : Cursor :=
        match firstInFile? (text ++ data) with
        | some first => ⟨first.loadAddress, some first⟩
        | none => ⟨0, none⟩
      .ok ⟨bytes.toArray, text, data, cursor⟩

/-- Opening a file changes none of its bytes. -/
theorem bytes_ofBytes {bytes : Bytes} {image : Image} (opened : ofBytes bytes = .ok image) :
    image.bytes = bytes := by
  simp only [ofBytes] at opened
  split at opened
  · cases opened
  · split at opened <;> cases opened
    rfl

def freeSlots (image : Image) (kind : SectionKind) : Nat :=
  kind.capacity - (image.sectionsOf kind).length

def sectionBytes (image : Image) (area : Section) : Bytes :=
  image.file.slice area.fileOffset.toNat area.size.toNat

def bssAddress (image : Image) : UInt32 :=
  image.file.wordAt Header.bssAddressField

def bssSize (image : Image) : UInt32 :=
  image.file.wordAt Header.bssSizeField

def entryPoint (image : Image) : UInt32 :=
  image.file.wordAt Header.entryField

/-- Replaces the bytes of the file from an offset on. The image is taken apart before its file is
written in, so that nothing else holds the file and no copy of it is made. -/
def overwrite (image : Image) (offset : Nat) (data : Bytes) : Image :=
  match image with
  | ⟨file, textSections, dataSections, cursor⟩ =>
    ⟨file.overwrite offset data, textSections, dataSections, cursor⟩

@[simp] theorem bytes_overwrite (image : Image) (offset : Nat) (data : Bytes) :
    (image.overwrite offset data).bytes = CubePatch.overwrite image.bytes offset data :=
  Buffer.toList_overwrite image.file offset data

@[simp] theorem sections_overwrite (image : Image) (offset : Nat) (data : Bytes) :
    (image.overwrite offset data).sections = image.sections := rfl

@[simp] theorem cursor_overwrite (image : Image) (offset : Nat) (data : Bytes) :
    (image.overwrite offset data).cursor = image.cursor := rfl

/-- Replaces the word at a file offset. -/
def setWord (image : Image) (offset : Nat) (word : UInt32) : Image :=
  image.overwrite offset (wordBytes word)

def setEntryPoint (image : Image) (address : UInt32) : Image :=
  image.setWord Header.entryField address

def setBss (image : Image) (address size : UInt32) : Image :=
  (image.setWord Header.bssAddressField address).setWord Header.bssSizeField size

/-- The section that holds an address; text sections are searched first. -/
def resolve (image : Image) (address : UInt32) : Except ImageError Section :=
  match image.sections.find? (·.Contains address) with
  | some area => .ok area
  | none => .error (.unmappedAddress address)

/-- The section that holds `length` bytes from an address on. -/
def resolveRange (image : Image) (address : UInt32) (length : Nat) : Except ImageError Section :=
  match image.resolve address with
  | .error fault => .error fault
  | .ok area =>
    match checkedStop address length with
    | .error cause => .error (.overflow cause)
    | .ok stop =>
      if area.stop < stop then .error (.sectionOverflow address length area.stop) else .ok area

end Image

end CubePatch
