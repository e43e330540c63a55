import CubePatch.Image.Cursor
import CubePatch.Proofs.Bytes

/-!
The layout of an image: sections that lie behind the header and inside the file, no two of which
share an address.

Opening a file checks exactly that, and a write through the cursor keeps it. In such an image an
address belongs to at most one section, so it stands for one place in the file.
-/
namespace CubePatch

namespace Section

/-- Whether `length` bytes from an address on lie inside the section. An empty range counts as lying
where its address is. -/
def Holds (area : Section) (address : UInt32) (length : Nat) : Prop :=
  area.Contains address ∧ address.toNat + length ≤ area.stop

/-- The end of a section has room in 64 bits. -/
theorem stop_lt (area : Section) : area.stop < UInt64.size := by
  have first := area.loadAddress.toNat_lt
  have size := area.size.toNat_lt
  unfold stop UInt64.size
  omega

/-- Two sections share no address; an empty one has none. -/
def Apart (first second : Section) : Prop :=
  first.size = 0 ∨ second.size = 0 ∨ first.stop ≤ second.loadAddress.toNat ∨
    second.stop ≤ first.loadAddress.toNat

theorem not_contains_of_apart {first second : Section} (apart : first.Apart second)
    {address : UInt32} (inside : first.Contains address) : ¬ second.Contains address := by
  simp only [Apart, Contains, stop, ← UInt32.toNat_inj, UInt32.toNat_zero] at *
  omega

/-- The file offset of an address in the section. -/
def placeOf (area : Section) (address : UInt32) : Nat :=
  area.fileOffset.toNat + (address - area.loadAddress).toNat

theorem placeOf_eq {area : Section} {address : UInt32} (inside : area.Contains address) :
    area.placeOf address + area.loadAddress.toNat = area.fileOffset.toNat + address.toNat := by
  have order : area.loadAddress ≤ address := UInt32.le_iff_toNat_le.mpr inside.1
  have := UInt32.toNat_sub_of_le _ _ order
  have := inside.1
  unfold placeOf
  omega

/-- What lies in a section lies in its part of the file. -/
theorem placeOf_add_le {area : Section} {address : UInt32} {length : Nat}
    (held : area.Holds address length) : area.placeOf address + length ≤ area.fileStop := by
  have place := placeOf_eq held.1
  have upper := held.2
  unfold stop at upper
  unfold fileStop
  omega

end Section

/-! ### What the check of a header establishes -/

/-- No pair of sections is reported exactly if all of them are apart. -/
theorem firstOverlap?_eq_none_iff (sections : List Section) :
    firstOverlap? sections = none ↔ sections.Pairwise Section.Apart := by
  induction sections with
  | nil => simp [firstOverlap?]
  | cons first rest ih =>
    rw [firstOverlap?, List.pairwise_cons, ← ih]
    split
    next second found =>
      constructor
      · intro absent
        cases absent
      · rintro ⟨apart, -⟩
        -- the pair that was found shares an address, so it is not apart
        have overlap := List.find?_some found
        have := apart second (List.mem_of_find?_eq_some found)
        simp only [Section.Meets, Section.Apart, Section.stop, decide_eq_true_eq, ne_eq,
          ← UInt32.toNat_inj, UInt32.toNat_zero] at *
        omega
    next missing =>
      rw [iff_and_self]
      intro _ second member
      have overlap := List.find?_eq_none.mp missing second member
      simp only [Section.Meets, Section.Apart, Section.stop, decide_eq_true_eq, ne_eq,
        ← UInt32.toNat_inj, UInt32.toNat_zero] at *
      omega

theorem checkSections_eq_ok_iff (fileSize : Nat) (sections : List Section) :
    checkSections fileSize sections = .ok () ↔
      (∀ area ∈ sections, headerSize ≤ area.fileOffset.toNat ∧ area.fileStop ≤ fileSize) ∧
        sections.Pairwise Section.Apart := by
  rw [← firstOverlap?_eq_none_iff]
  unfold checkSections
  split
  next area found =>
    have outside := List.find?_some found
    have member := List.mem_of_find?_eq_some found
    simp only [decide_eq_true_eq] at outside
    constructor
    · intro accepted
      cases accepted
    · rintro ⟨inside, -⟩
      have := inside area member
      omega
  next missing =>
    have inside : ∀ area ∈ sections,
        headerSize ≤ area.fileOffset.toNat ∧ area.fileStop ≤ fileSize := by
      intro area member
      have := List.find?_eq_none.mp missing area member
      simp only [decide_eq_true_eq] at this
      omega
    split
    next overlap => simp [overlap]
    next none => simpa [none] using inside

/-- A header in which the slot of a section describes that section. -/
def Header.describe (header : Bytes) (area : Section) : Bytes :=
  overwriteAll header
    [(offsetField area.slot, wordBytes area.fileOffset),
      (addressField area.slot, wordBytes area.loadAddress),
      (sizeField area.slot, wordBytes area.size)]

namespace Image

/-- The layout every image has that was opened, and keeps. -/
structure WellFormed (image : Image) : Prop where
  header : headerSize ≤ image.bytes.length
  behindHeader : ∀ area ∈ image.sections, headerSize ≤ area.fileOffset.toNat
  inFile : ∀ area ∈ image.sections, area.fileStop ≤ image.bytes.length
  apart : image.sections.Pairwise Section.Apart

theorem ofBytes_eq_ok {bytes : Bytes} {image : Image} (opened : ofBytes bytes = .ok image) :
    image.bytes = bytes ∧ image.text = Header.usedSections bytes .text ∧
      image.data = Header.usedSections bytes .data ∧ headerSize ≤ bytes.length ∧
      checkSections bytes.length image.sections = .ok () := by
  have same := bytes_ofBytes opened
  simp only [ofBytes] at opened
  split at opened
  · cases opened
  next long =>
    split at opened
    · cases opened
    next checked =>
      cases opened
      exact ⟨same, rfl, rfl, by omega, checked⟩

theorem wellFormed_of_ofBytes {bytes : Bytes} {image : Image}
    (opened : ofBytes bytes = .ok image) : image.WellFormed := by
  obtain ⟨rfl, -, -, long, checked⟩ := ofBytes_eq_ok opened
  obtain ⟨inside, apart⟩ := (checkSections_eq_ok_iff _ _).mp checked
  exact ⟨long, fun area member => (inside area member).1,
    fun area member => (inside area member).2, apart⟩

theorem WellFormed.of_same_layout {image other : Image} (sound : image.WellFormed)
    (sections : other.sections = image.sections)
    (length : other.bytes.length = image.bytes.length) : other.WellFormed := by
  refine ⟨?_, ?_, ?_, ?_⟩
  · exact length ▸ sound.header
  · exact sections ▸ sound.behindHeader
  · exact sections ▸ length ▸ sound.inFile
  · exact sections ▸ sound.apart

/-! ### What the buffer shows of the file -/

theorem sectionBytes_eq (image : Image) (area : Section) :
    image.sectionBytes area = slice image.bytes area.fileOffset.toNat area.size.toNat :=
  Buffer.slice_eq _ _ _

theorem entryPoint_eq (image : Image) : image.entryPoint = wordAt image.bytes Header.entryField :=
  Buffer.wordAt_eq _ _

theorem bss_eq (image : Image) :
    image.bssAddress = wordAt image.bytes Header.bssAddressField ∧
      image.bssSize = wordAt image.bytes Header.bssSizeField :=
  ⟨Buffer.wordAt_eq _ _, Buffer.wordAt_eq _ _⟩

/-! ### Addresses and places in the file -/

/-- Among sections that are apart an address is in the one that is found for it, and in no other. So
their order does not matter. -/
theorem find?_contains_of_apart {sections : List Section} (apart : sections.Pairwise Section.Apart)
    (address : UInt32) (area : Section) :
    sections.find? (·.Contains address) = some area ↔ area ∈ sections ∧ area.Contains address := by
  induction sections with
  | nil => simp
  | cons first rest ih =>
    obtain ⟨others, later⟩ := List.pairwise_cons.mp apart
    rw [List.find?_cons]
    by_cases inside : first.Contains address
    · simp only [inside, decide_true, Option.some.injEq, List.mem_cons]
      constructor
      · rintro rfl
        exact ⟨Or.inl rfl, inside⟩
      · rintro ⟨rfl | member, here⟩
        · rfl
        · -- a later section that holds the address too would not be apart from the first one
          exact absurd here (Section.not_contains_of_apart (others area member) inside)
    · simp only [inside, decide_false, ih later, List.mem_cons]
      constructor
      · rintro ⟨member, here⟩
        exact ⟨Or.inr member, here⟩
      · rintro ⟨rfl | member, here⟩
        · exact absurd here inside
        · exact ⟨member, here⟩

theorem find?_contains_eq_some_iff {image : Image} (sound : image.WellFormed) (address : UInt32)
    (area : Section) :
    image.sections.find? (·.Contains address) = some area ↔
      area ∈ image.sections ∧ area.Contains address :=
  find?_contains_of_apart sound.apart address area

theorem WellFormed.eq_of_contains {image : Image} (sound : image.WellFormed)
    {first second : Section} (one : first ∈ image.sections) (other : second ∈ image.sections)
    {address : UInt32} (here : first.Contains address) (there : second.Contains address) :
    first = second := by
  have found := (find?_contains_eq_some_iff sound address first).mpr ⟨one, here⟩
  rw [(find?_contains_eq_some_iff sound address second).mpr ⟨other, there⟩] at found
  exact (Option.some.inj found).symm

theorem resolve_eq_ok_iff {image : Image} (sound : image.WellFormed) (address : UInt32)
    (area : Section) :
    image.resolve address = .ok area ↔ area ∈ image.sections ∧ area.Contains address := by
  rw [← find?_contains_eq_some_iff sound]
  unfold resolve
  cases image.sections.find? (·.Contains address) <;> simp

theorem resolveRange_eq_ok_iff {image : Image} (sound : image.WellFormed) (address : UInt32)
    (length : Nat) (area : Section) :
    image.resolveRange address length = .ok area ↔
      area ∈ image.sections ∧ area.Holds address length := by
  rw [Section.Holds, ← and_assoc, ← resolve_eq_ok_iff sound]
  unfold resolveRange
  cases image.resolve address with
  | error fault => simp
  | ok found =>
    have narrow := found.stop_lt
    simp only [Except.ok.injEq]
    by_cases room : address.toNat + length < UInt64.size
    · rw [checkedStop_of_lt room]
      dsimp only
      split
      next crosses =>
        simp only [reduceCtorEq, false_iff, not_and]
        rintro rfl
        omega
      next fits =>
        rw [Except.ok.injEq, iff_self_and]
        rintro rfl
        omega
    · -- what has no room in 64 bits ends behind every section
      rw [checkedStop_of_le (Nat.le_of_not_lt room)]
      simp only [reduceCtorEq, false_iff, not_and]
      rintro rfl
      omega

/-- The place of an address in the file, if it is in a section. -/
def fileOffset? (image : Image) (address : UInt32) : Option Nat :=
  (image.sections.find? (·.Contains address)).map (·.placeOf address)

theorem fileOffset?_congr {image other : Image} (sections : other.sections = image.sections) :
    other.fileOffset? = image.fileOffset? := by
  funext address
  rw [fileOffset?, fileOffset?, sections]

theorem fileOffset?_of_mem {image : Image} (sound : image.WellFormed) {area : Section}
    (member : area ∈ image.sections) {address : UInt32} (inside : area.Contains address) :
    image.fileOffset? address = some (area.placeOf address) := by
  rw [fileOffset?, (find?_contains_eq_some_iff sound address area).mpr ⟨member, inside⟩]
  rfl

theorem fileOffset?_eq_some_iff {image : Image} (sound : image.WellFormed) (address : UInt32)
    (offset : Nat) :
    image.fileOffset? address = some offset ↔
      ∃ area ∈ image.sections, area.Contains address ∧ area.placeOf address = offset := by
  rw [fileOffset?, Option.map_eq_some_iff]
  simp only [find?_contains_eq_some_iff sound, and_assoc]

/-- What lies in a section lies in the file, behind the header. -/
theorem place_in_file {image : Image} (sound : image.WellFormed) {area : Section}
    (member : area ∈ image.sections) {address : UInt32} {length : Nat}
    (held : area.Holds address length) :
    headerSize ≤ area.placeOf address ∧
      area.placeOf address + length ≤ image.bytes.length := by
  have behind := sound.behindHeader area member
  refine ⟨?_, Nat.le_trans (Section.placeOf_add_le held) (sound.inFile area member)⟩
  unfold Section.placeOf
  omega

theorem fileOffset?_lt_length {image : Image} (sound : image.WellFormed) {address : UInt32}
    {offset : Nat} (located : image.fileOffset? address = some offset) :
    offset < image.bytes.length := by
  obtain ⟨area, member, inside, rfl⟩ := (fileOffset?_eq_some_iff sound _ _).mp located
  have upper := inside.2
  have held : area.Holds address 1 := ⟨inside, by omega⟩
  have bounds := place_in_file sound member held
  omega

end Image

end CubePatch
