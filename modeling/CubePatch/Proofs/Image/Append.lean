import CubePatch.Image.Append
import CubePatch.Payload.Placement
import CubePatch.Proofs.Image.Access

/-!
What adding a section does to an image.

The file is padded, the bytes of the section are put behind it, and the three header words of its
slot are written. The new section shares no address with the others, and no byte of the file either,
so the image keeps its layout.
-/
namespace CubePatch

namespace Header

/-- The header words of a section, by their place. -/
def wordsOf (area : Section) : List (Nat × Bytes) :=
  [(offsetField area.slot, wordBytes area.fileOffset),
    (addressField area.slot, wordBytes area.loadAddress),
    (sizeField area.slot, wordBytes area.size)]

theorem describe_eq (header : Bytes) (area : Section) :
    describe header area = overwriteAll header (wordsOf area) := rfl

@[simp] theorem length_describe (header : Bytes) (area : Section) :
    (describe header area).length = header.length :=
  length_overwriteAll header _

theorem mem_wordsOf {area : Section} (slot : area.slot < 18) {write : Nat × Bytes}
    (member : write ∈ wordsOf area) : write.1 + write.2.length ≤ bssAddressField := by
  simp only [wordsOf, List.mem_cons, List.not_mem_nil, or_false] at member
  unfold bssAddressField
  rcases member with rfl | rfl | rfl <;>
    simp only [offsetField, addressField, sizeField, length_wordBytes] <;> omega

/-- Headers with the same tables describe the same sections. -/
theorem sectionAt_of_take_eq {header other : Bytes}
    (same : header.take bssAddressField = other.take bssAddressField) (kind : SectionKind)
    {slot : Nat} (small : slot < 18) : sectionAt header kind slot = sectionAt other kind slot := by
  have field {offset : Nat} (inside : offset + 4 ≤ bssAddressField) :
      wordAt header offset = wordAt other offset := wordAt_of_take_eq same inside
  simp only [bssAddressField] at field
  simp only [sectionAt, offsetField, addressField, sizeField]
  rw [field (by omega), field (by omega), field (by omega)]

theorem sectionAt_congr {header other : Bytes}
    (same : header.take headerSize = other.take headerSize) (kind : SectionKind) {slot : Nat}
    (small : slot < 18) : sectionAt header kind slot = sectionAt other kind slot := by
  refine sectionAt_of_take_eq ?_ kind small
  have inner := congrArg (List.take bssAddressField) same
  rwa [List.take_take, List.take_take] at inner

/-- The words of a row of the tables are apart from each other. -/
theorem wordsOf_apart {area : Section} {first second : Nat × Bytes}
    (one : first ∈ wordsOf area) (other : second ∈ wordsOf area) :
    second = first ∨ first.1 + first.2.length ≤ second.1 ∨
      second.1 + second.2.length ≤ first.1 := by
  simp only [wordsOf, List.mem_cons, List.not_mem_nil, or_false] at one other
  rcases one with rfl | rfl | rfl <;> rcases other with rfl | rfl | rfl
  all_goals first
    | exact Or.inl rfl
    | simp only [offsetField, addressField, sizeField, length_wordBytes]
      omega

theorem wordAt_describe {header : Bytes} {area : Section} (slot : area.slot < 18)
    (long : bssAddressField ≤ header.length) {offset : Nat} {word : UInt32}
    (member : (offset, wordBytes word) ∈ wordsOf area) :
    wordAt (describe header area) offset = word := by
  have inside : offset + (wordBytes word).length ≤ header.length :=
    Nat.le_trans (mem_wordsOf slot member) long
  exact wordAt_of_slice (slice_overwriteAll_of_mem member inside fun other there =>
    wordsOf_apart member there)

/-- The slot of a section describes it. -/
theorem sectionAt_describe_self {header : Bytes} {area : Section} (slot : area.slot < 18)
    (long : bssAddressField ≤ header.length) :
    sectionAt (describe header area) area.kind area.slot = area := by
  have offset : wordAt (describe header area) (offsetField area.slot) = area.fileOffset :=
    wordAt_describe slot long (by simp [wordsOf])
  have address : wordAt (describe header area) (addressField area.slot) = area.loadAddress :=
    wordAt_describe slot long (by simp [wordsOf])
  have size : wordAt (describe header area) (sizeField area.slot) = area.size :=
    wordAt_describe slot long (by simp [wordsOf])
  rw [sectionAt, offset, address, size]

/-- All other slots describe what they described. -/
theorem sectionAt_describe_of_ne (header : Bytes) {area : Section} (kind : SectionKind) {slot : Nat}
    (small : slot < 18) (own : area.slot < 18) (differs : slot ≠ area.slot) :
    sectionAt (describe header area) kind slot = sectionAt header kind slot := by
  have apart {offset : Nat} (field : offset = offsetField slot ∨ offset = addressField slot ∨
      offset = sizeField slot) : wordAt (describe header area) offset = wordAt header offset := by
    rw [describe_eq]
    apply wordAt_overwriteAll_of_apart
    intro write member
    simp only [wordsOf, List.mem_cons, List.not_mem_nil, or_false] at member
    unfold offsetField addressField sizeField at field
    rcases member with rfl | rfl | rfl <;>
      simp only [offsetField, addressField, sizeField, length_wordBytes] <;> omega
  rw [sectionAt, apart (Or.inl rfl), apart (Or.inr (Or.inl rfl)), apart (Or.inr (Or.inr rfl))]
  rfl

/-- What stands behind the tables is left alone. -/
theorem wordAt_describe_of_le (header : Bytes) {area : Section} (slot : area.slot < 18)
    {offset : Nat} (behind : bssAddressField ≤ offset) :
    wordAt (describe header area) offset = wordAt header offset := by
  rw [describe_eq]
  apply wordAt_overwriteAll_of_apart
  intro write member
  exact Or.inr (Nat.le_trans (mem_wordsOf slot member) behind)

/-- The first slot of a kind that is not used. -/
def freeSlot? (header : Bytes) (kind : SectionKind) : Option Nat :=
  kind.slots.find? fun slot => wordAt header (offsetField slot) = 0

/-- Where the next section is listed: in the first free text slot, or in the first free data slot
once all text slots are used. -/
def nextSlot? (header : Bytes) : Option (SectionKind × Nat) :=
  match freeSlot? header .text with
  | some slot => some (.text, slot)
  | none => (freeSlot? header .data).map (.data, ·)

private theorem find?_range' (used : Nat → Bool) (start count : Nat) :
    (List.range' start count).find? (fun slot => !used slot) =
      if ((List.range' start count).takeWhile used).length < count then
        some (start + ((List.range' start count).takeWhile used).length)
      else none := by
  induction count generalizing start with
  | zero => rfl
  | succ count ih =>
    rw [List.range'_succ, List.find?_cons, List.takeWhile_cons]
    by_cases here : used start = true
    · simp only [here, Bool.not_true, if_true, List.length_cons, ih (start + 1),
        Nat.add_lt_add_iff_right]
      split
      · rw [Nat.add_assoc, Nat.add_comm 1]
      · rfl
    · simp [here]

/-- The used sections of a kind fill its slots up to the first free one. -/
theorem freeSlot?_eq (header : Bytes) (kind : SectionKind) :
    freeSlot? header kind =
      if (usedSections header kind).length < kind.capacity then
        some (kind.firstSlot + (usedSections header kind).length)
      else none := by
  have listed : (usedSections header kind).length =
      (kind.slots.takeWhile fun slot => wordAt header (offsetField slot) ≠ 0).length := by
    rw [usedSections, List.takeWhile_map, List.length_map]
    rfl
  rw [listed, SectionKind.slots, ← find?_range', freeSlot?, SectionKind.slots]
  simp

end Header

theorem SectionKind.slot_lt {kind : SectionKind} {count : Nat} (room : count < kind.capacity) :
    kind.firstSlot + count < 18 := by
  cases kind <;> simp only [capacity, firstSlot] at room ⊢ <;> omega

/-- The slots of text end where those of data begin. -/
theorem SectionKind.slot_ne {kind other : SectionKind} {index count : Nat}
    (inside : index < kind.capacity) (room : count < other.capacity)
    (differs : kind = other → index ≠ count) :
    kind.firstSlot + index ≠ other.firstSlot + count := by
  cases kind <;> cases other <;> simp [capacity, firstSlot] at inside room differs ⊢ <;> omega

theorem Section.apart_of_not_meets {area other : Section}
    (free : ¬ other.Meets area.loadAddress.toNat area.size.toNat) : other.Apart area := by
  simp only [Meets, Apart, stop, ne_eq, ← UInt32.toNat_inj, UInt32.toNat_zero] at *
  omega

theorem Section.Apart.symm {first second : Section} (apart : first.Apart second) :
    second.Apart first := by
  unfold Apart at *
  rcases apart with empty | empty | before | behind
  · exact Or.inr (Or.inl empty)
  · exact Or.inl empty
  · exact Or.inr (Or.inr (Or.inr before))
  · exact Or.inr (Or.inr (Or.inl behind))

namespace Image

/-- The kind of the next section: text while there is a slot for it. -/
def freeKind (image : Image) : SectionKind :=
  if image.text.length < SectionKind.text.capacity then .text else .data

/-- The section that some bytes become behind the sections of a kind. -/
def nextSection (image : Image) (kind : SectionKind) (payload : Bytes) (address : UInt32) :
    Section where
  kind := kind
  slot := kind.firstSlot + (image.sectionsOf kind).length
  fileOffset := UInt32.ofNat (padTo sectionAlignment image.bytes).length
  loadAddress := address
  size := UInt32.ofNat payload.length

/-- How an image comes from another one by a section of the given bytes. -/
structure Adds (image : Image) (payload : Bytes) (area : Section) (after : Image) : Prop where
  area_eq : area = image.nextSection area.kind payload area.loadAddress
  room : (image.sectionsOf area.kind).length < area.kind.capacity
  size_eq : area.size.toNat = payload.length
  free : ∀ other ∈ image.sections, ¬ other.Meets area.loadAddress.toNat area.size.toNat
  bytes : after.bytes = Header.describe (padTo sectionAlignment image.bytes ++ payload) area
  text : after.text = image.text ++ if area.kind = .text then [area] else []
  data : after.data = image.data ++ if area.kind = .data then [area] else []

theorem appendFault?_eq_none_iff (image : Image) (kind : SectionKind) (payload : Bytes)
    (address : UInt32) :
    image.appendFault? kind payload address = none ↔
      (image.sectionsOf kind).length < kind.capacity ∧ payload.length < UInt32.size ∧
        ∀ other ∈ image.sections, ¬ other.Meets address.toNat payload.length := by
  unfold appendFault?
  by_cases full : kind.capacity ≤ (image.sectionsOf kind).length
  · simp [full, Nat.not_lt.mpr full]
  · by_cases large : UInt32.size ≤ payload.length
    · simp [full, large, Nat.not_lt.mpr large]
    · simp [full, large, Nat.lt_of_not_le]

theorem appendFault?_eq_some {image : Image} {kind : SectionKind} {payload : Bytes}
    {address : UInt32} {fault : ImageError}
    (refused : image.appendFault? kind payload address = some fault) :
    (fault = .sectionCountFull kind ∧ ¬ (image.sectionsOf kind).length < kind.capacity) ∨
      (fault = .sectionOverlap address payload.length ∧
        (UInt32.size ≤ payload.length ∨
          ∃ other ∈ image.sections, other.Meets address.toNat payload.length)) := by
  unfold appendFault? at refused
  split at refused
  next full =>
    cases refused
    exact Or.inl ⟨rfl, Nat.not_lt.mpr full⟩
  · split at refused
    next large =>
      cases refused
      exact Or.inr ⟨rfl, Or.inl large⟩
    · split at refused
      next met =>
        cases refused
        exact Or.inr ⟨rfl, Or.inr (by simpa using met)⟩
      · cases refused

@[simp] theorem bytes_writeHeader (image : Image) (area : Section) :
    (image.writeHeader area).bytes = Header.describe image.bytes area := by
  simp only [writeHeader, setWord, bytes_overwrite]
  rfl

@[simp] theorem text_writeHeader (image : Image) (area : Section) :
    (image.writeHeader area).text = image.text := by
  simp only [writeHeader, setWord, text_overwrite]

@[simp] theorem data_writeHeader (image : Image) (area : Section) :
    (image.writeHeader area).data = image.data := by
  simp only [writeHeader, setWord, data_overwrite]

@[simp] theorem bytes_addSection (image : Image) (area : Section) :
    (image.addSection area).bytes = image.bytes := by
  unfold addSection
  split <;> rfl

theorem text_addSection (image : Image) (area : Section) :
    (image.addSection area).text = image.text ++ if area.kind = .text then [area] else [] := by
  unfold addSection
  cases area.kind <;> simp

theorem data_addSection (image : Image) (area : Section) :
    (image.addSection area).data = image.data ++ if area.kind = .data then [area] else [] := by
  unfold addSection
  cases area.kind <;> simp

/-- A payload that is not refused becomes the next section of its kind. -/
theorem append_of_granted {image : Image} {kind : SectionKind} {payload : Bytes}
    {address : UInt32} (granted : image.appendFault? kind payload address = none) :
    append kind payload address image = .ok (image.nextSection kind payload address)
      (({ image with file := image.file.padTo sectionAlignment ++ payload }.writeHeader
        (image.nextSection kind payload address)).addSection
          (image.nextSection kind payload address)) := by
  have padded : (image.file.padTo sectionAlignment).size =
      (padTo sectionAlignment image.bytes).length := by
    rw [← Array.length_toList, Buffer.toList_padTo]
    rfl
  unfold append
  rw [granted]
  simp only [padded, nextSection]

theorem append_eq_ok {image after : Image} {kind : SectionKind} {payload : Bytes}
    {address : UInt32} {area : Section} (run : append kind payload address image = .ok area after) :
    area.kind = kind ∧ area.loadAddress = address ∧ image.Adds payload area after := by
  cases refused : image.appendFault? kind payload address with
  | some fault =>
    unfold append at run
    rw [refused] at run
    cases run
  | none =>
    obtain ⟨room, small, free⟩ := (appendFault?_eq_none_iff _ _ _ _).mp refused
    rw [append_of_granted refused] at run
    obtain ⟨rfl, rfl⟩ := EStateM.Result.ok.inj run
    have size_eq : (image.nextSection kind payload address).size.toNat = payload.length :=
      UInt32.toNat_ofNat_of_lt' small
    have joined : (image.file.padTo sectionAlignment ++ payload).toList =
        padTo sectionAlignment image.bytes ++ payload := by
      rw [Array.toList_appendList, Buffer.toList_padTo]
      rfl
    refine ⟨rfl, rfl, rfl, room, size_eq, ?_, ?_, ?_, ?_⟩
    · rw [size_eq]
      exact free
    · rw [bytes_addSection, bytes_writeHeader, bytes, joined]
    · rw [text_addSection, text_writeHeader]
    · rw [data_addSection, data_writeHeader]

/-- A payload that is refused leaves no trace. -/
theorem append_eq_error {image after : Image} {kind : SectionKind} {payload : Bytes}
    {address : UInt32} {fault : ImageError}
    (run : append kind payload address image = .error fault after) :
    after = image ∧ image.appendFault? kind payload address = some fault := by
  unfold append at run
  split at run
  next refused =>
    cases run
    exact ⟨rfl, refused⟩
  · cases run

/-- The cursor stays where it is when a section is added. -/
theorem append_cursor {image after : Image} {kind : SectionKind} {payload : Bytes}
    {address : UInt32} {area : Section} (run : append kind payload address image = .ok area after) :
    after.cursor = image.cursor := by
  have kept : ∀ (grown : Image) (added : Section),
      ((grown.writeHeader added).addSection added).cursor = grown.cursor := by
    intro grown added
    rw [addSection]
    split <;> simp only [writeHeader, setWord, cursor_overwrite]
  unfold append at run
  split at run
  · cases run
  · cases run
    exact kept _ _

theorem append_text_full {image after : Image} {payload : Bytes} {address : UInt32}
    {kind : SectionKind}
    (run : append .text payload address image = .error (.sectionCountFull kind) after) :
    after = image ∧ ¬ image.text.length < SectionKind.text.capacity := by
  obtain ⟨rfl, refused⟩ := append_eq_error run
  refine ⟨rfl, ?_⟩
  -- with a slot left, no reason to refuse is the one that was given
  obtain ⟨-, full⟩ | ⟨overlap, -⟩ := appendFault?_eq_some refused
  · exact full
  · cases overlap

/-- A payload is installed as the next section of the kind that has a slot left. -/
theorem install_eq_ok {image after : Image} {payload : Bytes} {address : UInt32} {area : Section}
    (run : install payload address image = .ok area after) :
    area.kind = image.freeKind ∧ area.loadAddress = address ∧ image.Adds payload area after := by
  unfold install at run
  split at run
  next added grown done =>
    cases run
    obtain ⟨kind, load, adds⟩ := append_eq_ok done
    have room := adds.room
    rw [kind] at room
    exact ⟨kind.trans (if_pos room).symm, load, adds⟩
  next other left full =>
    -- the second attempt starts from the image of the first, which the refusal left alone
    obtain ⟨rfl, taken⟩ := append_text_full full
    split at run
    next added grown done =>
      cases run
      obtain ⟨kind, load, adds⟩ := append_eq_ok done
      exact ⟨kind.trans (if_neg taken).symm, load, adds⟩
    · cases run
    · cases run
  · cases run

theorem install_cursor {image after : Image} {payload : Bytes} {address : UInt32} {area : Section}
    (run : install payload address image = .ok area after) : after.cursor = image.cursor := by
  unfold install at run
  split at run
  next added grown done =>
    cases run
    exact append_cursor done
  next other left full =>
    obtain ⟨rfl, -⟩ := append_eq_error full
    split at run
    next added grown done =>
      cases run
      exact append_cursor done
    · cases run
    · cases run
  · cases run

/-- A payload that cannot be installed leaves no trace. It finds no slot, or it is too large or in
the way of a section. -/
theorem install_eq_error {image after : Image} {payload : Bytes} {address : UInt32}
    {fault : PayloadError} (run : install payload address image = .error fault after) :
    after = image ∧
      (fault = .noFreeSections ∨
        fault = .image (.sectionOverlap address payload.length) ∧
          (UInt32.size ≤ payload.length ∨
            ∃ other ∈ image.sections, other.Meets address.toNat payload.length)) := by
  unfold install at run
  split at run
  · cases run
  next other left full =>
    obtain ⟨rfl, -⟩ := append_eq_error full
    split at run
    · cases run
    next refused =>
      cases run
      exact ⟨(append_eq_error refused).1, Or.inl rfl⟩
    next reason spared refused =>
      cases run
      obtain ⟨same, told⟩ := append_eq_error refused
      obtain ⟨count, -⟩ | ⟨overlap, met⟩ := appendFault?_eq_some told
      · exact absurd count (spared _)
      · exact ⟨same, Or.inr ⟨congrArg _ overlap, met⟩⟩
  next reason spared refused =>
    cases run
    obtain ⟨same, told⟩ := append_eq_error refused
    obtain ⟨count, -⟩ | ⟨overlap, met⟩ := appendFault?_eq_some told
    · exact absurd count (spared _)
    · exact ⟨same, Or.inr ⟨congrArg _ overlap, met⟩⟩

/-! ### The layout after a section was added -/

namespace Adds

variable {image after : Image} {payload : Bytes} {area : Section}

theorem slot_eq (adds : image.Adds payload area after) :
    area.slot = area.kind.firstSlot + (image.sectionsOf area.kind).length := by
  rw [adds.area_eq]
  rfl

theorem slot_lt (adds : image.Adds payload area after) : area.slot < 18 := by
  rw [adds.slot_eq]
  exact SectionKind.slot_lt adds.room

theorem mem_sections (adds : image.Adds payload area after) (other : Section) :
    other ∈ after.sections ↔ other ∈ image.sections ∨ other = area := by
  rw [sections, sections, adds.text, adds.data]
  cases area.kind <;> simp [or_comm, or_left_comm]

theorem sectionsOf_eq (adds : image.Adds payload area after) (kind : SectionKind) :
    after.sectionsOf kind = image.sectionsOf kind ++ if area.kind = kind then [area] else [] := by
  cases kind
  · exact adds.text
  · exact adds.data

/-- A listed section was listed there before, or it is the new one, at the end of its list. -/
theorem getElem?_sectionsOf (adds : image.Adds payload area after) {kind : SectionKind}
    {index : Nat} {other : Section} (found : (after.sectionsOf kind)[index]? = some other) :
    (image.sectionsOf kind)[index]? = some other ∨
      kind = area.kind ∧ index = (image.sectionsOf kind).length ∧ other = area := by
  rw [adds.sectionsOf_eq] at found
  by_cases old : index < (image.sectionsOf kind).length
  · rw [List.getElem?_append_left old] at found
    exact Or.inl found
  · rw [List.getElem?_append_right (Nat.le_of_not_lt old)] at found
    split at found
    next same =>
      obtain ⟨last, rfl⟩ := List.getElem?_eq_some_iff.mp found
      rw [List.length_singleton] at last
      exact Or.inr ⟨same.symm, by omega, List.getElem_singleton _⟩
    · cases found

theorem length_eq (adds : image.Adds payload area after) :
    after.bytes.length = (padTo sectionAlignment image.bytes).length + payload.length := by
  rw [adds.bytes, Header.length_describe, List.length_append]

theorem length_le (adds : image.Adds payload area after) :
    image.bytes.length ≤ after.bytes.length := by
  rw [adds.length_eq, padTo, List.length_append]
  omega

/-- All slots but that of the new section describe what they described. -/
theorem sectionAt_of_ne (adds : image.Adds payload area after)
    (header : headerSize ≤ image.bytes.length) (kind : SectionKind) {slot : Nat}
    (small : slot < 18) (differs : slot ≠ area.slot) :
    Header.sectionAt after.bytes kind slot = Header.sectionAt image.bytes kind slot := by
  -- in front of the new section the file is the old one, but for one row of the tables
  have front : (padTo sectionAlignment image.bytes ++ payload).take headerSize =
      image.bytes.take headerSize := by
    rw [padTo, List.append_assoc, List.take_append_of_le_length header]
  rw [adds.bytes, Header.sectionAt_describe_of_ne _ kind small adds.slot_lt differs,
    Header.sectionAt_congr front kind small]

/-- The slot of the new section describes it. -/
theorem sectionAt_self (adds : image.Adds payload area after)
    (header : headerSize ≤ image.bytes.length) :
    Header.sectionAt after.bytes area.kind area.slot = area := by
  have table : Header.bssAddressField ≤ headerSize := by decide
  have long : Header.bssAddressField ≤
      (padTo sectionAlignment image.bytes ++ payload).length := by
    rw [padTo, List.length_append, List.length_append]
    omega
  rw [adds.bytes]
  exact Header.sectionAt_describe_self adds.slot_lt long

/-- An address of a section that was there is found in it still. -/
theorem find?_of_mem (sound : image.WellFormed) (adds : image.Adds payload area after)
    {home : Section} (member : home ∈ image.sections) {address : UInt32}
    (inside : home.Contains address) :
    after.sections.find? (·.Contains address) = some home := by
  have listed : home ∈ after.sections := (adds.mem_sections home).mpr (Or.inl member)
  cases found : after.sections.find? (·.Contains address) with
  | none => exact absurd inside (by simpa using List.find?_eq_none.mp found home listed)
  | some first =>
    have holds : first.Contains address := by simpa using List.find?_some found
    obtain old | rfl := (adds.mem_sections first).mp (List.mem_of_find?_eq_some found)
    · rw [sound.eq_of_contains old member holds inside]
    · have apart := Section.apart_of_not_meets (adds.free home member)
      exact absurd holds (Section.not_contains_of_apart apart inside)

/-- Every section lies in the file, also where the offset of the new one is reduced to a word. -/
theorem inFile (whole : ∀ other ∈ image.sections, other.fileStop ≤ image.bytes.length)
    (adds : image.Adds payload area after) :
    ∀ other ∈ after.sections, other.fileStop ≤ after.bytes.length := by
  intro other member
  obtain old | rfl := (adds.mem_sections other).mp member
  · exact Nat.le_trans (whole other old) adds.length_le
  · have reduced : other.fileOffset.toNat ≤ (padTo sectionAlignment image.bytes).length := by
      rw [adds.area_eq, nextSection, UInt32.toNat_ofNat']
      exact Nat.mod_le _ _
    rw [Section.fileStop, adds.size_eq, adds.length_eq]
    exact Nat.add_le_add_right reduced _

/-- The new section can stand in the middle, but being apart does not depend on the order. -/
theorem apart (before : image.sections.Pairwise Section.Apart)
    (adds : image.Adds payload area after) : after.sections.Pairwise Section.Apart := by
  have reordered : after.sections.Perm (image.sections ++ [area]) := by
    rw [sections, sections, adds.text, adds.data]
    cases area.kind
    · simp only [if_true, reduceCtorEq, if_false, List.append_nil, List.append_assoc]
      exact List.Perm.append_left _ List.perm_append_comm
    · simp
  rw [reordered.pairwise_iff Section.Apart.symm, List.pairwise_append]
  refine ⟨before, List.pairwise_singleton _ _, ?_⟩
  intro other old added same
  rw [List.mem_singleton.mp same]
  exact Section.apart_of_not_meets (adds.free other old)

variable (small : (padTo sectionAlignment image.bytes).length < UInt32.size)

include small

theorem fileOffset_eq (adds : image.Adds payload area after) :
    area.fileOffset.toNat = (padTo sectionAlignment image.bytes).length := by
  rw [adds.area_eq]
  exact UInt32.toNat_ofNat_of_lt' small

theorem wellFormed (sound : image.WellFormed) (adds : image.Adds payload area after) :
    after.WellFormed := by
  -- the section starts where the padded file ended, so it lies behind every other one
  have offset := adds.fileOffset_eq small
  have grown : image.bytes.length ≤ (padTo sectionAlignment image.bytes).length := by
    rw [padTo, List.length_append]
    omega
  have header := sound.header
  refine ⟨Nat.le_trans header adds.length_le, ?_, adds.inFile sound.inFile, adds.apart sound.apart⟩
  intro other member
  obtain old | rfl := (adds.mem_sections other).mp member
  · exact sound.behindHeader other old
  · omega

end Adds

end Image

end CubePatch
