import CubePatch.Proofs.Absorption.Run

/-!
Which codes an absorption takes out of a list, and what it does to the image.

## Main result

`absorb_exact`: an absorption fails exactly for a serial write of unknown size outside of every
condition. Otherwise it takes out the static writes outside of every condition that lie in sections,
keeps all other codes as they are, and changes exactly the bytes at which those writes are placed.
-/
namespace CubePatch

namespace Absorption

theorem counts_sum (absorption : Absorption) :
    absorption.counts.applied + absorption.counts.unmapped + absorption.counts.kept =
      absorption.fates.length := by
  unfold counts countOf
  induction absorption.fates with
  | nil => rfl
  | cons entry rest ih =>
    obtain ⟨code, fate⟩ := entry
    cases fate <;> simp at ih ⊢ <;> omega

/-- What an absorption of codes into an image is without a fault. -/
structure IsExact (image : Image) (codes : List Code) (absorption : Absorption) : Prop where
  /-- Every code has its fate, in order. -/
  codes_eq : absorption.fates.map (·.1) = codes
  applied_iff : ∀ index code fate, absorption.fates[index]? = some (code, fate) →
    (fate = .applied ↔ openConditions 0 (codes.take index) = 0 ∧ code.Absorbable image)
  /-- The codes that are left stand between the first line and a terminator, byte for byte. -/
  remaining_eq : absorption.remaining.bytes = CodeList.magic ++
    (absorption.fates.filter fun entry => entry.2 ≠ .applied).flatMap (·.1.bytes) ++
      CodeList.terminator.bytes
  bytes_eq : absorption.image.bytes = overwriteAll image.bytes (image.placed absorption.writes)
  text_eq : absorption.image.text = image.text
  data_eq : absorption.image.data = image.data
  header_eq : absorption.image.bytes.take headerSize = image.bytes.take headerSize
  length_eq : absorption.image.bytes.length = image.bytes.length
  /-- A byte at which no write of an absorbed code is placed stays as it is. -/
  elsewhere : ∀ position,
    (∀ code ∈ absorption.applied, ∀ write ∈ code.writes, ∀ offset,
      image.fileOffset? write.address = some offset →
        ¬ (offset ≤ position ∧ position < offset + write.bytes.length)) →
    absorption.image.bytes[position]? = image.bytes[position]?
  counted : absorption.counts.applied + absorption.counts.unmapped + absorption.counts.kept =
    codes.length

theorem Follows.isExact {image : Image} (sound : image.WellFormed) {codes : List Code}
    {absorption : Absorption} (follows : absorption.Follows image 0 codes)
    (clean : absorption.fault = none) : absorption.IsExact image codes where
  codes_eq := follows.codes_eq clean
  applied_iff index code fate there := (follows.fate_of index code fate there).2.2
  remaining_eq := by
    simp only [remaining, CodeList.ofCodes, CodeList.bytes, CodeList.body, List.flatMap_map]
  bytes_eq := follows.bytes
  text_eq := follows.text
  data_eq := follows.data
  header_eq := by
    rw [follows.bytes]
    exact take_overwriteAll_of_le (Image.headerSize_le_of_mem_placed sound _)
  length_eq := by rw [follows.bytes, length_overwriteAll]
  elsewhere := by
    intro position untouched
    rw [follows.bytes]
    apply getElem?_overwriteAll_of_missed
    rintro ⟨offset, data⟩ member
    obtain ⟨write, made, located, rfl⟩ := (Image.mem_placed_iff image _ _ _).mp member
    obtain ⟨code, absorbed, here⟩ := List.mem_flatMap.mp made
    exact untouched code absorbed write here offset located
  counted := by rw [counts_sum, ← List.length_map (·.1), follows.codes_eq clean]

end Absorption

/-- An absorption ends without a fault unless a serial write of unknown size stands outside of every
condition. The fault tells of the first of them. Without a fault the absorption is exact. -/
theorem absorb_exact {image : Image} (sound : image.WellFormed) (list : CodeList) :
    ((list.absorb image).fault = none ↔
      ∀ index code, list.codes[index]? = some code →
        openConditions 0 (list.codes.take index) = 0 → ¬ code.BadSerial) ∧
    (∀ fault, (list.absorb image).fault = some fault →
      ∃ index code, list.codes[index]? = some code ∧
        openConditions 0 (list.codes.take index) = 0 ∧ code.BadSerial ∧
        fault = .serial ⟨code.address, (Serial.ofPayload code.payload).size⟩ ∧
        ∀ earlier other, earlier < index → list.codes[earlier]? = some other →
          openConditions 0 (list.codes.take earlier) = 0 → ¬ other.BadSerial) ∧
    ((list.absorb image).fault = none → (list.absorb image).IsExact image list.codes) := by
  have follows : (list.absorb image).Follows image 0 list.codes :=
    absorbCodes_follows sound 0 list.codes
  generalize list.absorb image = absorption at follows ⊢
  -- every code that was looked at is a good one
  have good : ∀ index code, index < absorption.fates.length → list.codes[index]? = some code →
      openConditions 0 (list.codes.take index) = 0 → ¬ code.BadSerial := by
    intro index code seen there outside bad
    obtain ⟨same, fine, -⟩ := follows.fate_of index _ _ (List.getElem?_eq_getElem seen)
    rw [there, Option.some.injEq] at same
    exact fine ⟨outside, same ▸ bad⟩
  refine ⟨⟨?_, ?_⟩, ?_, follows.isExact sound⟩
  · intro clean index code there
    -- without a fault, all codes were looked at
    have all : absorption.fates.length = list.codes.length := by
      rw [← follows.codes_eq clean, List.length_map]
    obtain ⟨inside, -⟩ := List.getElem?_eq_some_iff.mp there
    exact good index code (all ▸ inside) there
  · intro none_bad
    cases failed : absorption.fault with
    | none => rfl
    | some fault =>
      obtain ⟨code, there, outside, bad, -⟩ := follows.fault_of fault failed
      exact absurd bad (none_bad _ code there outside)
  · intro fault failed
    obtain ⟨code, there, outside, bad, told⟩ := follows.fault_of fault failed
    exact ⟨_, code, there, outside, bad, told, good⟩

/-! ### A small image -/

/-- Eight bytes loaded at `0x80003100`. -/
def smallArea : Section := ⟨.text, 0, 0x100, 0x80003100, 8⟩

def smallFile : Bytes :=
  Header.describe (List.replicate headerSize 0) smallArea ++ List.replicate 8 0

def smallImage : Image := ⟨smallFile.toArray, [smallArea], [], ⟨0x80003100, some smallArea⟩⟩

set_option maxRecDepth 4000 in
theorem ofBytes_smallFile : Image.ofBytes smallFile = .ok smallImage := by rfl

/-- A write under a condition, one in the small image, and one that sticks out of it. -/
def mixedCodes : CodeList := .ofCodes [
  ⟨⟨0x28003000, 0⟩, [], by decide, by decide⟩,
  ⟨⟨0x04003100, 0x11111111⟩, [], by decide, by decide⟩,
  ⟨⟨0xE0000000, 0⟩, [], by decide, by decide⟩,
  ⟨⟨0x04003104, 0x44444444⟩, [], by decide, by decide⟩,
  ⟨⟨0x04003106, 0x33333333⟩, [], by decide, by decide⟩]

theorem absorb_exact_mixedCodes :
    smallImage.WellFormed ∧ (mixedCodes.absorb smallImage).fault = none ∧
      (mixedCodes.absorb smallImage).counts = ⟨1, 1, 3⟩ ∧
      (mixedCodes.absorb smallImage).IsExact smallImage mixedCodes.codes := by
  have sound := Image.wellFormed_of_ofBytes ofBytes_smallFile
  have clean : (mixedCodes.absorb smallImage).fault = none := by decide +kernel
  exact ⟨sound, clean, by decide +kernel, (absorb_exact sound mixedCodes).2.2 clean⟩

end CubePatch
