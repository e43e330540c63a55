import CubePatch.Proofs.Image.Gap
import CubePatch.Proofs.Image.Run

/-!
What adding a section gives, and when it is refused.

The new section has its bytes behind the padded end of the file, and of the old bytes only the words
of its slot are written. So each of its addresses leads to a byte of the payload. The addresses of
the other sections lead where they led before: the new section shares none of them, hence it does not
matter that text is searched before data.

## Main result

`append_exact`: a section is refused for want of a slot, or else for a shared address, and for
nothing else; where it is not refused the image is extended by it.
-/
namespace CubePatch

/-! ### Bytes behind the end of a file -/

theorem getElem?_padTo_of_lt {bytes : Bytes} {position : Nat} (unit : Nat)
    (inside : position < bytes.length) : (padTo unit bytes)[position]? = bytes[position]? :=
  List.getElem?_append_left inside

theorem getElem?_padTo_of_le {bytes : Bytes} {unit position : Nat} (behind : bytes.length ≤ position)
    (before : position < roundUp bytes.length unit) : (padTo unit bytes)[position]? = some 0 := by
  rw [padTo, List.getElem?_append_right behind, List.getElem?_replicate, if_pos (by omega)]

/-- The file offset of an address does not wrap if the section ends below 2 ^ 32 in the file. -/
theorem Section.fileOffsetOf?_eq_some {area : Section} {address : UInt32}
    (inside : area.Contains address) (small : area.fileStop ≤ UInt32.size) :
    ∃ offset, area.fileOffsetOf? address = some offset ∧ offset.toNat = area.placeOf address := by
  have upper := inside.2
  have held : area.Holds address 1 := ⟨inside, by omega⟩
  have below : area.placeOf address < UInt32.size := Nat.lt_of_lt_of_le (placeOf_add_le held) small
  refine ⟨area.fileOffset + (address - area.loadAddress), ?_, ?_⟩
  · rw [fileOffsetOf?, if_pos inside, checkedSum_of_lt below]
    rfl
  · rw [UInt32.toNat_add]
    exact Nat.mod_eq_of_lt below

namespace Image

/-! ### When a section is refused -/

theorem append_of_refused {image : Image} {kind : SectionKind} {payload : Bytes}
    {address : UInt32} {fault : ImageError}
    (refused : image.appendFault? kind payload address = some fault) :
    append kind payload address image = .error fault image := by
  rw [append, refused]

/-- Some bytes at an address share a byte with a section. A payload without bytes counts as one. -/
def IsTaken (image : Image) (address : UInt32) (length : Nat) : Prop :=
  ∃ area ∈ image.sections, ∃ place, address.toNat ≤ place ∧ place < address.toNat + max length 1 ∧
    area.Covers place

theorem isTaken_iff (image : Image) (address : UInt32) (length : Nat) :
    image.IsTaken address length ↔ ∃ area ∈ image.sections, area.Meets address.toNat length := by
  simp only [IsTaken, Section.meets_iff]

/-- A payload that fits into the file is refused if there is no slot, and else if its addresses are
taken. -/
theorem appendFault?_of_small (image : Image) (kind : SectionKind) {payload : Bytes}
    (address : UInt32) (small : payload.length < UInt32.size) :
    image.appendFault? kind payload address =
      if kind.capacity ≤ (image.sectionsOf kind).length then some (.sectionCountFull kind)
      else if ∃ area ∈ image.sections, area.Meets address.toNat payload.length then
        some (.sectionOverlap address payload.length)
      else none := by
  unfold appendFault?
  rw [if_neg (Nat.not_le.mpr small)]
  simp only [List.any_eq_true, decide_eq_true_eq]

/-! ### What an image is extended by -/

/-- The words of the header that describe a slot, by their offsets. -/
def slotFields (slot : Nat) : List Nat :=
  [Header.offsetField slot, Header.addressField slot, Header.sizeField slot]

/-- An image that was extended by a section of some bytes at an address. -/
structure IsExtended (image : Image) (kind : SectionKind) (payload : Bytes) (address : UInt32)
    (area : Section) (after : Image) : Prop where
  kind_eq : area.kind = kind
  slot_eq : area.slot = kind.firstSlot + (image.sectionsOf kind).length
  fileOffset_eq : area.fileOffset.toNat = roundUp image.bytes.length sectionAlignment
  loadAddress_eq : area.loadAddress = address
  size_eq : area.size.toNat = payload.length
  /-- The section is the last one of its kind, and no other one is added. -/
  listed : ∀ other, after.sectionsOf other =
    image.sectionsOf other ++ if kind = other then [area] else []
  described : Header.sectionAt after.bytes kind area.slot = area
  length_eq : after.bytes.length = roundUp image.bytes.length sectionAlignment + payload.length
  old : ∀ position, position < image.bytes.length →
    (∀ field ∈ slotFields area.slot, ¬ (field ≤ position ∧ position < field + 4)) →
    after.bytes[position]? = image.bytes[position]?
  padding : ∀ position, image.bytes.length ≤ position →
    position < roundUp image.bytes.length sectionAlignment → after.bytes[position]? = some 0
  /-- Every byte of the payload that has an address is found there. -/
  shown : ∀ index, (inside : index < payload.length) → address.toNat + index < 2 ^ 32 →
    after.resolve (address + UInt32.ofNat index) = .ok area ∧
    ∃ offset, area.fileOffsetOf? (address + UInt32.ofNat index) = some offset ∧
      after.bytes[offset.toNat]? = some payload[index]
  resolved : ∀ other home, image.resolve other = .ok home → after.resolve other = .ok home
  cursor_eq : after.cursor = image.cursor

namespace Adds

variable {image after : Image} {payload : Bytes} {area : Section}

/-- Outside of the slot of the new section, the file is the old one, padded, with the payload behind
it. -/
theorem getElem?_of_spared (adds : image.Adds payload area after) {position : Nat}
    (spared : ∀ field ∈ slotFields area.slot, ¬ (field ≤ position ∧ position < field + 4)) :
    after.bytes[position]? = (padTo sectionAlignment image.bytes ++ payload)[position]? := by
  rw [adds.bytes, Header.describe_eq]
  apply getElem?_overwriteAll_of_missed
  intro write member
  have field : write.1 ∈ slotFields area.slot ∧ write.2.length = 4 := by
    simp only [Header.wordsOf, List.mem_cons, List.not_mem_nil, or_false] at member
    rcases member with rfl | rfl | rfl <;> simp [slotFields]
  rw [field.2]
  exact spared _ field.1

theorem getElem?_behind (adds : image.Adds payload area after) {position : Nat}
    (behind : headerSize ≤ position) :
    after.bytes[position]? = (padTo sectionAlignment image.bytes ++ payload)[position]? := by
  apply adds.getElem?_of_spared
  -- the fields of the last slot end before the header does
  have slot := adds.slot_lt
  unfold headerSize at behind
  simp only [slotFields, Header.offsetField, Header.addressField, Header.sizeField, List.mem_cons,
    List.not_mem_nil, or_false, forall_eq_or_imp, forall_eq]
  omega

variable (sound : image.IsConsistent)
  (small : roundUp image.bytes.length sectionAlignment + payload.length < UInt32.size)

include sound small

/-- The addresses of the new section lead to the payload. -/
theorem shown (adds : image.Adds payload area after) {index : Nat} (inside : index < payload.length)
    (low : area.loadAddress.toNat + index < 2 ^ 32) :
    after.resolve (area.loadAddress + UInt32.ofNat index) = .ok area ∧
      ∃ offset, area.fileOffsetOf? (area.loadAddress + UInt32.ofNat index) = some offset ∧
        after.bytes[offset.toNat]? = some payload[index] := by
  have padded := length_padTo sectionAlignment image.bytes (by decide)
  have start := adds.fileOffset_eq (by omega)
  have header := sound.layout.header
  have grown := le_roundUp image.bytes.length sectionAlignment (by decide)
  have size := adds.size_eq
  have value : (area.loadAddress + UInt32.ofNat index).toNat = area.loadAddress.toNat + index := by
    rw [UInt32.toNat_add, UInt32.toNat_ofNat']
    omega
  have here : area.Contains (area.loadAddress + UInt32.ofNat index) := by
    unfold Section.Contains Section.stop
    omega
  have place := Section.placeOf_eq here
  have fits : area.fileStop ≤ UInt32.size := by
    unfold Section.fileStop
    omega
  obtain ⟨offset, found, offset_eq⟩ := Section.fileOffsetOf?_eq_some here fits
  have listed : area ∈ after.sections := (adds.mem_sections area).mpr (Or.inr rfl)
  have layout := adds.wellFormed (by omega) sound.layout
  refine ⟨(resolve_eq_ok_iff layout _ _).mpr ⟨listed, here⟩, offset, found, ?_⟩
  -- the section begins in the file where the padding ends, and so does the payload
  have index_eq : offset.toNat = (padTo sectionAlignment image.bytes).length + index := by omega
  rw [adds.getElem?_behind (by omega), index_eq, List.getElem?_append_right (by omega),
    Nat.add_sub_cancel_left, List.getElem?_eq_getElem inside]

theorem isExtended (adds : image.Adds payload area after) (cursor : after.cursor = image.cursor) :
    image.IsExtended area.kind payload area.loadAddress area after := by
  have padded := length_padTo sectionAlignment image.bytes (by decide)
  have header := sound.layout.header
  have grown := le_roundUp image.bytes.length sectionAlignment (by decide)
  refine ⟨rfl, adds.slot_eq, ?_, rfl, adds.size_eq, adds.sectionsOf_eq, adds.sectionAt_self header,
    ?_, ?_, ?_, ?_, ?_, cursor⟩
  · rw [adds.fileOffset_eq (by omega), padded]
  · rw [adds.length_eq, padded]
  · intro position inside spared
    rw [adds.getElem?_of_spared spared, List.getElem?_append_left (by omega),
      getElem?_padTo_of_lt _ inside]
  · intro position behind before
    rw [adds.getElem?_behind (by omega), List.getElem?_append_left (by omega),
      getElem?_padTo_of_le behind before]
  · intro index inside low
    exact adds.shown sound small inside low
  · intro other home found
    obtain ⟨member, inside⟩ := (resolve_eq_ok_iff sound.layout other home).mp found
    rw [resolve, adds.find?_of_mem sound.layout member inside]

end Adds

/-- In an image that was opened, or made from nothing, and then edited, a section is refused exactly
if its kind has no slot left, or else if a section has a byte at one of its addresses. A refused
section leaves no trace, and any other one extends the image. -/
theorem append_exact {start : Image} {operations : List Operation}
    (made : start = empty ∨ ∃ file, ofBytes file = .ok start) (kind : SectionKind)
    (payload : Bytes) (address : UInt32)
    (small : roundUp (start.run operations).bytes.length sectionAlignment + payload.length <
      UInt32.size) :
    (append kind payload address (start.run operations) =
        .error (.sectionCountFull kind) (start.run operations) ↔
      ((start.run operations).sectionsOf kind).length = kind.capacity) ∧
    (append kind payload address (start.run operations) =
        .error (.sectionOverlap address payload.length) (start.run operations) ↔
      ((start.run operations).sectionsOf kind).length ≠ kind.capacity ∧
        (start.run operations).IsTaken address payload.length) ∧
    (((start.run operations).sectionsOf kind).length ≠ kind.capacity →
      ¬ (start.run operations).IsTaken address payload.length →
      ∃ area after, append kind payload address (start.run operations) = .ok area after ∧
        (start.run operations).IsExtended kind payload address area after) := by
  have grown := le_roundUp (start.run operations).bytes.length sectionAlignment (by decide)
  have sound : (start.run operations).IsConsistent := (isConsistent_of_made made).run (by omega)
  -- from here on it only counts that the image is consistent
  generalize start.run operations = image at small grown sound ⊢
  have room := sound.room kind
  rw [isTaken_iff]
  have short : payload.length < UInt32.size := by omega
  have fault := image.appendFault?_of_small kind address short
  -- the three cases are the three results, for a slot is looked for before the addresses are checked
  by_cases full : kind.capacity ≤ (image.sectionsOf kind).length
  · rw [if_pos full] at fault
    have count : (image.sectionsOf kind).length = kind.capacity := by omega
    simp [append_of_refused fault, count]
  · rw [if_neg full] at fault
    have count : (image.sectionsOf kind).length ≠ kind.capacity := by omega
    by_cases taken : ∃ area ∈ image.sections, area.Meets address.toNat payload.length
    · rw [if_pos taken] at fault
      simp only [append_of_refused fault, EStateM.Result.error.injEq, reduceCtorEq, and_true,
        count, taken, ne_eq, not_false_eq_true, not_true_eq_false, false_implies, implies_true]
    · rw [if_neg taken] at fault
      obtain ⟨area, after, run⟩ : ∃ area after, append kind payload address image = .ok area after :=
        ⟨_, _, append_of_granted fault⟩
      obtain ⟨rfl, rfl, adds⟩ := append_eq_ok run
      have extended := adds.isExtended sound small (append_cursor run)
      refine ⟨?_, ?_, fun _ _ => ⟨_, _, run, extended⟩⟩
      · rw [run]
        simp only [reduceCtorEq, count]
      · rw [run]
        simp only [reduceCtorEq, taken, and_false]

/-- One section of four bytes. -/
def single : List Operation := [.append .text [1, 2, 3, 4] 0x80003100]

/-- Right behind a section there is room, but no byte of it is given away, not even to a payload that
has none. -/
theorem append_exact_single :
    roundUp (empty.run single).bytes.length sectionAlignment + ([5, 6, 7] : Bytes).length <
      UInt32.size ∧
    (∃ area after, append .data [5, 6, 7] 0x80003104 (empty.run single) = .ok area after ∧
      (empty.run single).IsExtended .data [5, 6, 7] 0x80003104 area after) ∧
    append .data [] 0x80003103 (empty.run single) =
      .error (.sectionOverlap 0x80003103 0) (empty.run single) := by
  have room : ((empty.run single).sectionsOf .data).length ≠ SectionKind.data.capacity := by
    decide +kernel
  have free : ¬ (empty.run single).IsTaken 0x80003104 ([5, 6, 7] : Bytes).length := by
    rw [isTaken_iff]
    decide +kernel
  have taken : (empty.run single).IsTaken 0x80003103 ([] : Bytes).length := by
    rw [isTaken_iff]
    decide +kernel
  have small : roundUp (empty.run single).bytes.length sectionAlignment +
      ([5, 6, 7] : Bytes).length < UInt32.size := by decide +kernel
  have smaller : roundUp (empty.run single).bytes.length sectionAlignment + ([] : Bytes).length <
      UInt32.size := by decide +kernel
  have granted := append_exact (Or.inl rfl) .data [5, 6, 7] 0x80003104 small
  have refused := append_exact (Or.inl rfl) .data [] 0x80003103 smaller
  exact ⟨small, granted.2.2 room free, refused.2.1.mpr ⟨room, taken⟩⟩

end Image

end CubePatch
