import CubePatch.Proofs.Image.Run

/-!
What is seen when an image is written out and opened again.

The tables of a header end at the first slot with a zero offset. What stands in the slots behind it
is not looked at when a file is opened, and it stays there when sections are added in front of it. A
file that is opened again is read on through such slots, as soon as the sections in front of them
reach them.

## Main result

`run_reopens_iff`: an image is opened again as it was exactly if the file it was first opened from
had a zero offset in the slots behind the sections that are listed now.
-/
namespace CubePatch

namespace Header

/-- A slot of a kind is free in a header, if the kind has that slot. -/
def IsFreeAt (header : Bytes) (kind : SectionKind) (slot : Nat) : Prop :=
  slot ∈ kind.slots → wordAt header (offsetField slot) = 0

instance (header : Bytes) (kind : SectionKind) (slot : Nat) :
    Decidable (IsFreeAt header kind slot) :=
  inferInstanceAs (Decidable (_ → _))

/-- The sections that a header describes in the first slots of a kind are used. They are all that
are used exactly if the next slot is free. -/
theorem usedSections_of_listed {header : Bytes} {kind : SectionKind} {sections : List Section}
    (room : sections.length ≤ kind.capacity)
    (used : ∀ area ∈ sections, area.fileOffset ≠ 0)
    (listed : ∀ index area, sections[index]? = some area →
      area = sectionAt header kind (kind.firstSlot + index)) :
    sections <+: usedSections header kind ∧
      (usedSections header kind = sections ↔
        IsFreeAt header kind (kind.firstSlot + sections.length)) := by
  obtain ⟨left, whole⟩ := Nat.exists_eq_add_of_le room
  have first_slots : (List.range' kind.firstSlot sections.length).map (sectionAt header kind) =
      sections := by
    apply List.ext_getElem?
    intro index
    by_cases inside : index < sections.length
    · rw [List.getElem?_map, List.getElem?_range' inside, Nat.one_mul, Option.map_some,
        List.getElem?_eq_getElem inside]
      exact congrArg some (listed index _ (List.getElem?_eq_getElem inside)).symm
    · rw [List.getElem?_eq_none (Nat.le_of_not_lt inside), List.getElem?_eq_none]
      rw [List.length_map, List.length_range']
      exact Nat.le_of_not_lt inside
  -- reading goes on from where the sections end
  have split : usedSections header kind = sections ++
      ((List.range' (kind.firstSlot + sections.length) left).map
        (sectionAt header kind)).takeWhile (·.fileOffset ≠ 0) := by
    rw [usedSections, SectionKind.slots, whole, ← List.range'_append_1, List.map_append,
      first_slots, List.takeWhile_append_of_pos]
    intro area member
    exact decide_eq_true (used area member)
  have next : kind.firstSlot + sections.length ∈ kind.slots ↔ 0 < left := by
    rw [SectionKind.slots, List.mem_range'_1, whole]
    omega
  refine ⟨split ▸ List.prefix_append _ _, ?_⟩
  rw [split, List.append_right_eq_self, IsFreeAt, next]
  cases left with
  | zero => simp
  | succ more =>
    rw [List.range'_succ, List.map_cons, List.takeWhile_cons]
    by_cases free : wordAt header (offsetField (kind.firstSlot + sections.length)) = 0 <;>
      simp [sectionAt, free]

end Header

namespace Image

/-- The bytes of an image are opened as an image with the same sections and header fields. -/
def Reopens (image : Image) : Prop :=
  ∃ again, ofBytes image.bytes = .ok again ∧ again.text = image.text ∧ again.data = image.data ∧
    again.bssAddress = image.bssAddress ∧ again.bssSize = image.bssSize ∧
    again.entryPoint = image.entryPoint

theorem reopens_of_ofBytes {file : Bytes} {image : Image} (opened : ofBytes file = .ok image) :
    image.Reopens := by
  obtain rfl := bytes_ofBytes opened
  exact ⟨image, opened, rfl, rfl, rfl, rfl, rfl⟩

/-- A file is opened exactly if its used sections pass the check. -/
theorem exists_ofBytes {file : Bytes} (long : headerSize ≤ file.length)
    (checked : checkSections file.length
      (Header.usedSections file .text ++ Header.usedSections file .data) = .ok ()) :
    ∃ image, ofBytes file = .ok image := by
  unfold ofBytes
  rw [if_neg (Nat.not_lt.mpr long)]
  dsimp only
  rw [checked]
  exact ⟨_, rfl⟩

namespace IsConsistent

variable {image : Image} (sound : image.IsConsistent)

include sound

/-- The header lists the sections of the image, and nothing behind them if the next slot is free. -/
theorem usedSections_eq (kind : SectionKind) :
    image.sectionsOf kind <+: Header.usedSections image.bytes kind ∧
      (Header.usedSections image.bytes kind = image.sectionsOf kind ↔
        Header.IsFreeAt image.bytes kind (kind.firstSlot + (image.sectionsOf kind).length)) := by
  refine Header.usedSections_of_listed (sound.room kind) ?_ (sound.listed kind)
  intro area member zero
  have listed : area ∈ image.sections := by
    cases kind
    · exact List.mem_append_left _ member
    · exact List.mem_append_right _ member
  have behind := sound.layout.behindHeader area listed
  rw [zero] at behind
  exact absurd behind (by decide)

theorem reopens_iff :
    image.Reopens ↔ ∀ kind,
      Header.IsFreeAt image.bytes kind (kind.firstSlot + (image.sectionsOf kind).length) := by
  constructor
  · rintro ⟨again, opened, text, data, -⟩ kind
    rw [← (sound.usedSections_eq kind).2, ← sectionsOf_ofBytes opened]
    cases kind
    · exact text
    · exact data
  · intro free
    have text : Header.usedSections image.bytes .text = image.text :=
      (sound.usedSections_eq .text).2.mpr (free .text)
    have data : Header.usedSections image.bytes .data = image.data :=
      (sound.usedSections_eq .data).2.mpr (free .data)
    -- the sections that are read are those of the image, and these have a layout that is accepted
    have checked : checkSections image.bytes.length
        (Header.usedSections image.bytes .text ++ Header.usedSections image.bytes .data) =
          .ok () := by
      rw [text, data]
      refine (checkSections_eq_ok_iff _ _).mpr ⟨fun area member => ?_, sound.layout.apart⟩
      exact ⟨sound.layout.behindHeader area member, sound.layout.inFile area member⟩
    obtain ⟨again, opened⟩ := exists_ofBytes sound.layout.header checked
    obtain ⟨bytes, text_again, data_again, -⟩ := ofBytes_eq_ok opened
    refine ⟨again, opened, text_again.trans text, data_again.trans data, ?_, ?_, ?_⟩
    · rw [(bss_eq again).1, (bss_eq image).1, bytes]
    · rw [(bss_eq again).2, (bss_eq image).2, bytes]
    · rw [entryPoint_eq, entryPoint_eq, bytes]

/-- An image whose file is opened with as many sections is opened as it is. -/
theorem reopens_of_length {again : Image} (opened : ofBytes image.bytes = .ok again)
    (count : again.sections.length = image.sections.length) : image.Reopens := by
  refine sound.reopens_iff.mpr fun kind => (sound.usedSections_eq kind).2.mp ?_
  have more (kind : SectionKind) :
      (image.sectionsOf kind).length ≤ (again.sectionsOf kind).length := by
    rw [sectionsOf_ofBytes opened]
    exact (sound.usedSections_eq kind).1.length_le
  have text : image.text.length ≤ again.text.length := more .text
  have data : image.data.length ≤ again.data.length := more .data
  rw [sections, sections, List.length_append, List.length_append] at count
  -- neither list is shorter than before, so neither is longer
  have same : (image.sectionsOf kind).length = (again.sectionsOf kind).length := by
    cases kind <;> simp only [sectionsOf] <;> omega
  rw [sectionsOf_ofBytes opened] at same
  exact ((sound.usedSections_eq kind).1.eq_of_length same).symm

/-! ### Slots that list nothing -/

/-- An operation leaves the slots that list no section after it. -/
theorem sectionAt_after (operation : Operation) {kind : SectionKind} {index : Nat}
    (inside : index < kind.capacity)
    (unlisted : ((image.after operation).sectionsOf kind).length ≤ index) :
    Header.sectionAt (image.after operation).bytes kind (kind.firstSlot + index) =
      Header.sectionAt image.bytes kind (kind.firstSlot + index) := by
  have small := SectionKind.slot_lt inside
  obtain keeps | ⟨payload, area, adds, -⟩ := after_cases image operation
  · exact Header.sectionAt_of_take_eq (keeps.table_eq sound.layout sound.home) kind small
  · refine adds.sectionAt_of_ne sound.layout.header kind small ?_
    rw [adds.slot_eq]
    refine SectionKind.slot_ne inside adds.room ?_
    -- behind the end of the list, which has the new section in it, is not where that section is
    rintro rfl
    rw [adds.sectionsOf_eq, if_pos rfl, List.length_append, List.length_singleton] at unlisted
    omega

theorem sectionAt_run {operations : List Operation}
    (small : (image.run operations).bytes.length < UInt32.size) {kind : SectionKind} {index : Nat}
    (inside : index < kind.capacity)
    (unlisted : ((image.run operations).sectionsOf kind).length ≤ index) :
    Header.sectionAt (image.run operations).bytes kind (kind.firstSlot + index) =
      Header.sectionAt image.bytes kind (kind.firstSlot + index) := by
  -- lists only grow, so a slot that lists nothing at the end never did
  induction operations generalizing image with
  | nil => rfl
  | cons operation later ih =>
    have before := length_le_run (image.after operation) later
    have grows := (sectionsOf_prefix_run (image.after operation) later kind).length_le
    have step := sound.step (Nat.lt_of_le_of_lt before small)
    exact (ih step small unlisted).trans
      (sound.sectionAt_after operation inside (Nat.le_trans grows unlisted))

end IsConsistent

/-- Whatever was done to an image that was opened, it is opened again as it is exactly if the slots
behind its sections were free in the beginning. -/
theorem run_reopens_iff {file : Bytes} {start : Image} (opened : ofBytes file = .ok start)
    {operations : List Operation}
    (small : (start.run operations).bytes.length < UInt32.size) :
    (start.run operations).Reopens ↔ ∀ kind, Header.IsFreeAt file kind
      (kind.firstSlot + ((start.run operations).sectionsOf kind).length) := by
  have begins := isConsistent_ofBytes opened
  rw [(begins.run small).reopens_iff]
  refine forall_congr' fun kind => imp_congr_right fun slot => ?_
  rw [SectionKind.slots, List.mem_range'_1] at slot
  have kept := begins.sectionAt_run small (Nat.lt_of_add_lt_add_left slot.2) (Nat.le_refl _)
  have same : wordAt (start.run operations).bytes (Header.offsetField
        (kind.firstSlot + ((start.run operations).sectionsOf kind).length)) =
      wordAt start.bytes (Header.offsetField
        (kind.firstSlot + ((start.run operations).sectionsOf kind).length)) :=
    congrArg Section.fileOffset kept
  rw [same, bytes_ofBytes opened]

end Image

end CubePatch
