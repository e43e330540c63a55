import CubePatch.Code.StaticWrite
import CubePatch.Proofs.Image.Layout

/-!
A flat memory of bytes, writes in it, and what it holds once an image is loaded.

Loading an image writes each section at its address. As no two sections share an address, a memory
then holds the byte of the image at every address of a section and its old content elsewhere.
-/
namespace CubePatch

/-- The bytes of a 32-bit address space. -/
abbrev Memory := UInt32 → UInt8

/-- A write as the number of its first address and the bytes put there. -/
def Write.span (write : Write) : Nat × Bytes :=
  (write.address.toNat, write.bytes)

namespace Memory

/-- Makes a write. Like the range of a section, a range of addresses does not wrap, so a part behind
the last address is lost. -/
def write (memory : Memory) (made : Write) : Memory := fun address =>
  if made.address.toNat ≤ address.toNat then
    (made.bytes[address.toNat - made.address.toNat]?).getD (memory address)
  else memory address

def run (memory : Memory) (writes : List Write) : Memory :=
  writes.foldl write memory

theorem run_apply (memory : Memory) (writes : List Write) (address : UInt32) :
    memory.run writes address =
      (lastByte? (writes.map Write.span) address.toNat).getD (memory address) := by
  induction writes generalizing memory with
  | nil => rfl
  | cons made rest ih =>
    have step : memory.run (made :: rest) = (memory.write made).run rest := rfl
    rw [step, ih, List.map_cons, Write.span, lastByte?]
    -- the later writes decide; only where they are silent does the first one show
    cases lastByte? (rest.map Write.span) address.toNat with
    | some byte => rfl
    | none =>
      simp only [Option.none_or, Option.getD_none, write]
      split <;> rfl

end Memory

namespace Image

/-- A section as the write that loads it. -/
def loading (image : Image) (area : Section) : Write :=
  ⟨area.loadAddress, image.sectionBytes area⟩

/-- The memory after an image was loaded into it. -/
def load (image : Image) (memory : Memory) : Memory :=
  memory.run (image.sections.map image.loading)

/-- The byte an image holds for an address, if the address is in a section. -/
def byteAt? (image : Image) (address : UInt32) : Option UInt8 :=
  (image.fileOffset? address).bind (image.bytes[·]?)

private theorem sectionBytes_get? (image : Image) {area : Section} {address : UInt32}
    (order : area.loadAddress.toNat ≤ address.toNat) :
    (image.sectionBytes area)[address.toNat - area.loadAddress.toNat]? =
      if area.Contains address then image.bytes[area.placeOf address]? else none := by
  rw [sectionBytes_eq, getElem?_slice]
  by_cases inside : area.Contains address
  · have place := Section.placeOf_eq inside
    have upper := inside.2
    unfold Section.stop at upper
    rw [if_pos (by omega), if_pos inside]
    congr 1
    omega
  · have beyond : ¬ address.toNat < area.stop := fun upper => inside ⟨order, upper⟩
    unfold Section.stop at beyond
    rw [if_neg (by omega), if_neg inside]

private theorem lastByte?_loading (image : Image) (address : UInt32) {sections : List Section}
    (apart : sections.Pairwise Section.Apart) :
    lastByte? ((sections.map image.loading).map Write.span) address.toNat =
      ((sections.find? (·.Contains address)).map (·.placeOf address)).bind
        (image.bytes[·]?) := by
  induction sections with
  | nil => rfl
  | cons first rest ih =>
    obtain ⟨others, later⟩ := List.pairwise_cons.mp apart
    rw [List.map_cons, List.map_cons, Write.span, lastByte?,
      ih later, loading]
    by_cases inside : first.Contains address
    · -- loading the later sections does not reach what the first one loaded
      have absent : rest.find? (·.Contains address) = none := by
        rw [List.find?_eq_none]
        intro area member
        simpa using Section.not_contains_of_apart (others area member) inside
      have held := sectionBytes_get? image inside.1
      rw [if_pos inside] at held
      simp [absent, inside, inside.1, held]
    · have missed : (if first.loadAddress.toNat ≤ address.toNat then
          (image.sectionBytes first)[address.toNat - first.loadAddress.toNat]? else none) =
            none := by
        split
        next order =>
          rw [sectionBytes_get? image order, if_neg inside]
        next => rfl
      simp [inside, missed]

/-- A loaded image shows its own byte at each address of a section. -/
theorem load_apply {image : Image} (sound : image.WellFormed) (memory : Memory)
    (address : UInt32) :
    image.load memory address = (image.byteAt? address).getD (memory address) := by
  rw [load, Memory.run_apply, lastByte?_loading image address sound.apart]
  rfl

theorem exists_byteAt?_eq_some {image : Image} (sound : image.WellFormed) {address : UInt32}
    {offset : Nat} (located : image.fileOffset? address = some offset) :
    ∃ byte, image.byteAt? address = some byte := by
  have inside := fileOffset?_lt_length sound located
  refine ⟨image.bytes[offset], ?_⟩
  rw [byteAt?, located, Option.bind_some, List.getElem?_eq_getElem inside]

end Image

end CubePatch
