import CubePatch.Image

/-!
# Adding a section

A new section takes the next slot of its kind. Its bytes go behind the end of the file, at the next
multiple of 256, and the three header words of the slot are filled in. All checks come first, so a
refused section leaves no trace. The cursor stays where it is.
-/
namespace CubePatch.Image

/-- File offsets of added sections are multiples of this. -/
def sectionAlignment : Nat := 0x100

/-- Lists a section as the last one of its kind. -/
def addSection (image : Image) (area : Section) : Image :=
  match area.kind with
  | .text => { image with text := image.text ++ [area] }
  | .data => { image with data := image.data ++ [area] }

/-- Writes the header words of a section into its slot. -/
def writeHeader (image : Image) (area : Section) : Image :=
  ((image.setWord (Header.offsetField area.slot) area.fileOffset).setWord
    (Header.addressField area.slot) area.loadAddress).setWord
      (Header.sizeField area.slot) area.size

/-- Why a section cannot be added, if it cannot. -/
def appendFault? (image : Image) (kind : SectionKind) (payload : Bytes) (address : UInt32) :
    Option ImageError :=
  if kind.capacity ≤ (image.sectionsOf kind).length then some (.sectionCountFull kind)
  else if UInt32.size ≤ payload.length then some (.sectionOverlap address payload.length)
  else if image.sections.any (·.Meets address.toNat payload.length) then
    some (.sectionOverlap address payload.length)
  else none

/-- Adds a section with the given bytes at an address. -/
def append (kind : SectionKind) (payload : Bytes) (address : UInt32) : Edit ImageError Section :=
  fun image =>
    match image.appendFault? kind payload address with
    | some fault => .error fault image
    | none =>
      let padded := image.file.padTo sectionAlignment
      let area : Section :=
        { kind := kind
          slot := kind.firstSlot + (image.sectionsOf kind).length
          fileOffset := UInt32.ofNat padded.size
          loadAddress := address
          size := UInt32.ofNat payload.length }
      .ok area (({ image with file := padded ++ payload }.writeHeader area).addSection area)

end CubePatch.Image
