import CubePatch.Image
import CubePatch.Instruction.Encoding

/-!
# Reading and writing at the cursor

The cursor is set to an address and then moves over what is read or written. An access must end
before the end of the section in which the cursor was set. An access that fails leaves both the
image and the cursor as they were.

The cursor starts again from zero at the top of the address space. It is then in front of its
section, and an access stops there at the distance between the two.
-/
namespace CubePatch.Image

/-- Sets the cursor to an address inside a section. -/
def seek (address : UInt32) : Edit ImageError UInt32 := fun image =>
  match image.resolve address with
  | .error fault => .error fault image
  | .ok area => .ok address { image with cursor := ⟨address, some area⟩ }

/-- Moves the cursor by a signed number of bytes. -/
def seekBy (delta : Int32) : Edit ImageError UInt32 := fun image =>
  seek (image.cursor.address + delta.toUInt32) image

/-- The file offset of the cursor, if `length` bytes fit before the end of its section. -/
def cursorOffset (image : Image) (length : Nat) : Except ImageError Nat :=
  let address := image.cursor.address
  match image.cursor.home with
  | none => .error (.unmappedAddress address)
  | some home =>
    match checkedStop address length with
    | .error cause => .error (.overflow cause)
    | .ok stop =>
      if home.stop < stop then .error (.sectionOverflow address length home.stop)
      else
        match checkedDifference address home.loadAddress with
        | .error cause => .error (.overflow cause)
        | .ok distance => .ok (home.fileOffset.toNat + distance.toNat)

/-- Moves the cursor over `length` bytes. -/
def pass (image : Image) (length : Nat) : Image :=
  { image with
    cursor := { image.cursor with address := image.cursor.address + UInt32.ofNat length } }

def read (length : Nat) : Edit ImageError Bytes := fun image =>
  match image.cursorOffset length with
  | .error fault => .error fault image
  | .ok offset =>
    .ok (image.file.slice offset length) (image.pass length)

def readWord : Edit ImageError UInt32 := do
  let bytes ← read 4
  return wordAt bytes 0

def write (data : Bytes) : Edit ImageError Unit := fun image =>
  match image.cursorOffset data.length with
  | .error fault => .error fault image
  | .ok offset =>
    .ok () ((image.pass data.length).overwrite offset data)

def writeWord (word : UInt32) : Edit ImageError Unit :=
  write (wordBytes word)

/-- Writes a branch to `target` at `source` and leaves the cursor behind it. -/
def insertBranch (target source : UInt32) (link : Bool) : Edit ImageError Unit := do
  let _ ← seek source
  writeWord (branchWord source target link)

/-- What a branch found in an image does. Branches through a register have no target. -/
structure BranchInfo where
  target : Option UInt32
  conditional : Bool
  deriving DecidableEq, Repr

/-- Decodes the branch at an address. -/
def branchAt (address : UInt32) : Edit ImageError BranchInfo := do
  let _ ← seek address
  let word ← readWord
  match Instruction.decode? word with
  | some instruction =>
    if instruction.isBranch then
      return ⟨instruction.target? address, instruction.isConditional⟩
    else throw (.notABranch address word)
  | none => throw (.notABranch address word)

end CubePatch.Image
