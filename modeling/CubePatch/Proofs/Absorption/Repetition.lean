import CubePatch.Proofs.Absorption.Exactness
import CubePatch.Proofs.Image.Run

/-!
A second absorption.

The fate of a code hangs on the number of open conditions in front of it and on the sections. No
pass changes a section, and the codes that are taken out open and close no condition. So the codes
that were left are left again, each for the same reason, and the whole list meets the same fates in
the image that was made from it. Its writes are then made a second time, which changes nothing,
however they overlap.

## Main result

`absorb_idempotent`
-/
namespace CubePatch

theorem Image.isMapped_congr {image other : Image} (sections : other.sections = image.sections) :
    other.isMapped = image.isMapped := by
  funext writes
  simp only [isMapped, resolveRange, resolve, sections]

/-! ### One code in two images -/

section Step

variable {depth : Nat} {code : Code} {image after : Image}

/-- A code that is left changes nothing, and is left in every image with the same sections. -/
theorem absorbCode_of_left {fate : Fate} (step : absorbCode depth code image = .ok fate after)
    (left : fate ≠ .applied) :
    after = image ∧ ∀ other : Image, other.sections = image.sections →
      absorbCode depth code other = .ok fate other := by
  unfold absorbCode at step
  split at step
  next outside =>
    split at step
    · cases step
    next dynamic =>
      cases step
      refine ⟨rfl, fun other _ => ?_⟩
      rw [absorbCode, if_pos outside, dynamic]
    next writes static =>
      split at step
      · split at step
        · cases step
          exact absurd rfl left
        · cases step
      next unmapped =>
        cases step
        refine ⟨rfl, fun other sections => ?_⟩
        rw [absorbCode, if_pos outside, static]
        simp only [Image.isMapped_congr sections, unmapped]
        rfl
  next inside =>
    cases step
    exact ⟨rfl, fun other _ => if_neg inside⟩

/-- An absorbed code opens no condition and ends none. -/
theorem depthAfter_of_applied (step : absorbCode depth code image = .ok .applied after) :
    depthAfter depth code.kind = depth := by
  unfold absorbCode at step
  split at step
  · split at step
    · cases step
    · cases step
    next writes static =>
      -- only static kinds have writes
      unfold Code.staticWrites? at static
      revert static
      cases code.kind <;> simp [depthAfter]
  · cases step

/-- A code that is absorbed into an image is absorbed into every sound one with the same sections. -/
theorem absorbCode_of_applied {other : Image} (sound : image.WellFormed)
    (sound_other : other.WellFormed) (sections : other.sections = image.sections)
    (step : absorbCode depth code image = .ok .applied after) :
    ∃ later, absorbCode depth code other = .ok .applied later := by
  obtain ⟨rfl, good, absorbable, -⟩ := absorbable_of_applied sound step
  obtain ⟨later, made, -⟩ :=
    absorbCode_of_absorbable sound_other good ((code.absorbable_congr sections).mpr absorbable)
  exact ⟨later, made⟩

theorem sections_of_absorbCode {fate : Fate} (step : absorbCode depth code image = .ok fate after) :
    after.sections = image.sections := by
  have keeps := Image.absorbCode_keeping depth code image
  rw [Edit.after_of_ok step] at keeps
  exact keeps.sections_eq

end Step

/-! ### A pass over the same codes, and over those that were left -/

theorem exists_step_of_clean {depth : Nat} {code : Code} {rest : List Code} {image : Image}
    (clean : (absorbCodes depth (code :: rest) image).fault = none) :
    ∃ fate after, absorbCode depth code image = .ok fate after ∧
      (absorbCodes (depthAfter depth code.kind) rest after).fault = none := by
  cases step : absorbCode depth code image with
  | error fault after =>
    rw [absorbCodes, step] at clean
    cases clean
  | ok fate after =>
    rw [absorbCodes_of_step step] at clean
    exact ⟨fate, after, rfl, clean⟩

/-- The fates of codes hang on the sections alone. -/
theorem fates_absorbCodes_congr {image other : Image} (sound : image.WellFormed)
    (sound_other : other.WellFormed) (sections : other.sections = image.sections) {depth : Nat}
    {codes : List Code} (clean : (absorbCodes depth codes image).fault = none) :
    (absorbCodes depth codes other).fates = (absorbCodes depth codes image).fates ∧
      (absorbCodes depth codes other).fault = none := by
  -- both passes take a step, after which the images have the same sections again
  induction codes generalizing depth image other with
  | nil => exact ⟨rfl, rfl⟩
  | cons code rest ih =>
    obtain ⟨fate, after, step, later⟩ := exists_step_of_clean clean
    have kept := Image.absorbCode_keeping depth code
    obtain ⟨after_other, step_other⟩ : ∃ after_other,
        absorbCode depth code other = .ok fate after_other := by
      by_cases absorbed : fate = .applied
      · subst absorbed
        exact absorbCode_of_applied sound sound_other sections step
      · exact ⟨other, (absorbCode_of_left step absorbed).2 other sections⟩
    have same : after_other.sections = after.sections := by
      rw [sections_of_absorbCode step, sections_of_absorbCode step_other, sections]
    have still := (kept image).wellFormed sound
    have still_other := (kept other).wellFormed sound_other
    rw [Edit.after_of_ok step] at still
    rw [Edit.after_of_ok step_other] at still_other
    obtain ⟨fates, fault⟩ := ih still still_other same later
    rw [absorbCodes_of_step step, absorbCodes_of_step step_other]
    exact ⟨congrArg ((code, fate) :: ·) fates, fault⟩

/-- The codes that a pass left are left again by a pass over them alone, which changes nothing. -/
theorem absorbCodes_left {image other : Image} (sections : other.sections = image.sections)
    {depth : Nat} {codes : List Code} (clean : (absorbCodes depth codes image).fault = none) :
    absorbCodes depth
        (((absorbCodes depth codes image).fates.filter fun entry => entry.2 ≠ .applied).map (·.1))
        other =
      ⟨other, (absorbCodes depth codes image).fates.filter fun entry => entry.2 ≠ .applied, none⟩ := by
  induction codes generalizing depth image with
  | nil => rfl
  | cons code rest ih =>
    obtain ⟨fate, after, step, later⟩ := exists_step_of_clean clean
    have same := sections.trans (sections_of_absorbCode step).symm
    have tail := ih same later
    rw [absorbCodes_of_step step]
    by_cases absorbed : fate = .applied
    · subst absorbed
      -- the codes behind an absorbed one are met at the depth they had
      rw [depthAfter_of_applied step] at tail ⊢
      simpa using tail
    · have again := (absorbCode_of_left step absorbed).2 other sections
      simp only [ne_eq, absorbed, not_false_eq_true, decide_true, List.filter_cons_of_pos,
        List.map_cons] at tail ⊢
      rw [absorbCodes_of_step again, tail]

/-! ### Absorbing twice -/

namespace Absorption

/-- What a pass that absorbs nothing comes to: the codes that another pass left, with their fates. -/
def leftAlone (absorption : Absorption) : Absorption where
  image := absorption.image
  fates := absorption.fates.filter fun entry => entry.2 ≠ .applied
  fault := none

theorem remaining_leftAlone (absorption : Absorption) :
    absorption.leftAlone.remaining = absorption.remaining := by
  simp only [remaining, leftAlone, List.filter_filter, Bool.and_self]

theorem counts_leftAlone (absorption : Absorption) :
    absorption.leftAlone.counts = ⟨0, absorption.counts.unmapped, absorption.counts.kept⟩ := by
  have same (fate : Fate) : absorption.leftAlone.countOf fate =
      absorption.fates.countP fun entry => entry.2 = fate ∧ entry.2 ≠ .applied := by
    simp only [countOf, leftAlone, List.countP_filter, Bool.decide_and]
  have none_applied : absorption.leftAlone.countOf .applied = 0 := by
    rw [same, List.countP_eq_zero]
    simp
  have other {fate : Fate} (left : fate ≠ .applied) :
      absorption.leftAlone.countOf fate = absorption.countOf fate := by
    rw [same, countOf]
    congr 1
    funext entry
    exact decide_eq_decide.mpr ⟨And.left, fun is => ⟨is, is ▸ left⟩⟩
  rw [counts, counts, none_applied, other (by decide), other (by decide)]

end Absorption

/-- A second absorption of what the first one left takes out nothing, counts what was left as it was
counted, and leaves the image as it is. A second absorption of the whole list into the image that was
made leaves the same list and changes no byte of the file. -/
theorem absorb_idempotent {image : Image} (sound : image.WellFormed) (list : CodeList)
    (clean : (list.absorb image).fault = none) :
    let once := list.absorb image
    let again := once.remaining.absorb once.image
    let twice := list.absorb once.image
    (again.fault = none ∧ again.remaining = once.remaining ∧
      again.counts = ⟨0, once.counts.unmapped, once.counts.kept⟩ ∧ again.image = once.image) ∧
    twice.fault = none ∧ twice.remaining = once.remaining ∧
      twice.image.bytes = once.image.bytes := by
  intro once again twice
  have follows : once.Follows image 0 list.codes := absorbCodes_follows sound 0 list.codes
  have sections : once.image.sections = image.sections := follows.sections_eq
  have sound_once : once.image.WellFormed := follows.wellFormed sound
  constructor
  · have alone : again = once.leftAlone := absorbCodes_left sections clean
    rw [alone]
    exact ⟨rfl, once.remaining_leftAlone, once.counts_leftAlone, rfl⟩
  · obtain ⟨fates, fault⟩ : twice.fates = once.fates ∧ twice.fault = none :=
      fates_absorbCodes_congr sound sound_once sections clean
    have repeats : twice.Follows once.image 0 list.codes :=
      absorbCodes_follows sound_once 0 list.codes
    have writes : twice.writes = once.writes := by
      rw [Absorption.writes, Absorption.writes, Absorption.applied, Absorption.applied, fates]
    refine ⟨fault, ?_, ?_⟩
    · rw [Absorption.remaining, Absorption.remaining, fates]
    · rw [repeats.bytes, writes, Image.placed_congr sections, follows.bytes,
        overwriteAll_overwriteAll]

/-- A fill, a serial write that runs over half of it and over itself, an end without a condition, and
a write that sticks out of the small image. -/
def overlappingCodes : CodeList := .ofCodes [
  ⟨⟨0x00003100, 0x00030011⟩, [], by decide, by decide⟩,
  ⟨⟨0x08003102, 0x22222222⟩, [0x20, 0x01, 0x00, 0x02, 0x11, 0x11, 0x11, 0x11], by decide,
    by decide⟩,
  ⟨⟨0xE0000000, 0x80008000⟩, [], by decide, by decide⟩,
  ⟨⟨0x04003107, 0x33333333⟩, [], by decide, by decide⟩]

theorem absorb_idempotent_overlappingCodes :
    smallImage.WellFormed ∧ (overlappingCodes.absorb smallImage).fault = none ∧
    (overlappingCodes.absorb smallImage).counts = ⟨2, 1, 1⟩ ∧
    let once := overlappingCodes.absorb smallImage
    let again := once.remaining.absorb once.image
    let twice := overlappingCodes.absorb once.image
    (again.fault = none ∧ again.remaining = once.remaining ∧
      again.counts = ⟨0, once.counts.unmapped, once.counts.kept⟩ ∧ again.image = once.image) ∧
    twice.fault = none ∧ twice.remaining = once.remaining ∧
      twice.image.bytes = once.image.bytes := by
  have sound := Image.wellFormed_of_ofBytes ofBytes_smallFile
  have clean : (overlappingCodes.absorb smallImage).fault = none := by decide +kernel
  exact ⟨sound, clean, by decide +kernel, absorb_idempotent sound overlappingCodes clean⟩

end CubePatch
