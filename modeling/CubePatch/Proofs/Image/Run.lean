import CubePatch.Code.Absorption
import CubePatch.Payload.Placement
import CubePatch.Proofs.Image.Append

/-!
What holds of an image at every point of a run.

The sections of an image are known in three places: in its lists, in the tables of its header, and
in its cursor. A step either leaves the lists and the tables alone, or adds one section to both; no
step writes a byte of the tables otherwise. So the three places agree throughout a run, whether its
steps succeed or fail.

## Main result

`run_isConsistent`: as long as the file fits into the address space, the image stays consistent, and
a section that is there stays there.
-/
namespace CubePatch

/-- The image after an edit, whether it succeeds or fails. -/
def Edit.after (edit : Edit ε α) (image : Image) : Image :=
  match edit image with
  | .ok _ after => after
  | .error _ after => after

theorem Edit.after_of_ok {edit : Edit ε α} {image after : Image} {value : α}
    (run : edit image = .ok value after) : edit.after image = after := by
  rw [Edit.after, run]

theorem Edit.after_of_error {edit : Edit ε α} {image after : Image} {fault : ε}
    (run : edit image = .error fault after) : edit.after image = after := by
  rw [Edit.after, run]

namespace Image

/-- What is done to an image. -/
inductive Operation where
  | seek (address : UInt32)
  | seekBy (delta : Int32)
  | read (length : Nat)
  | write (data : Bytes)
  | append (kind : SectionKind) (payload : Bytes) (address : UInt32)
  | install (payload : Bytes) (address : UInt32)
  | setEntryPoint (address : UInt32)
  | setBss (address size : UInt32)
  | insertBranch (target source : UInt32) (link : Bool)
  | branchAt (address : UInt32)
  | absorb (list : CodeList)

/-- The image after an operation, whether it succeeds or fails. -/
def after (image : Image) : Operation → Image
  | .seek address => (Image.seek address).after image
  | .seekBy delta => (Image.seekBy delta).after image
  | .read length => (Image.read length).after image
  | .write data => (Image.write data).after image
  | .append kind payload address => (Image.append kind payload address).after image
  | .install payload address => (Image.install payload address).after image
  | .setEntryPoint address => image.setEntryPoint address
  | .setBss address size => image.setBss address size
  | .insertBranch target source link => (Image.insertBranch target source link).after image
  | .branchAt address => (Image.branchAt address).after image
  | .absorb list => (list.absorb image).image

/-- The image after a run of operations. -/
def run (image : Image) (operations : List Operation) : Image :=
  operations.foldl after image

/-- The cursor was set in a section of the image, if it was set. -/
def AtHome (image : Image) : Prop :=
  ∀ home, image.cursor.home = some home → home ∈ image.sections

/-! ### Steps that leave the sections alone -/

/-- What holds between two images if the step from one to the other leaves the lists of sections and
the tables of the header alone. -/
structure Keeps (image after : Image) : Prop where
  text_eq : after.text = image.text
  data_eq : after.data = image.data
  length_eq : after.bytes.length = image.bytes.length
  home : ∀ home, after.cursor.home = some home →
    image.cursor.home = some home ∨ home ∈ image.sections
  /-- The tables are out of reach if all sections lie behind the header. -/
  table_eq : image.WellFormed → image.AtHome →
    after.bytes.take Header.bssAddressField = image.bytes.take Header.bssAddressField

namespace Keeps

variable {image middle after : Image}

theorem sections_eq (keeps : image.Keeps after) : after.sections = image.sections := by
  rw [sections, sections, keeps.text_eq, keeps.data_eq]

theorem sectionsOf_eq (keeps : image.Keeps after) (kind : SectionKind) :
    after.sectionsOf kind = image.sectionsOf kind := by
  cases kind
  · exact keeps.text_eq
  · exact keeps.data_eq

theorem atHome (keeps : image.Keeps after) (home : image.AtHome) : after.AtHome := by
  intro area standing
  rw [keeps.sections_eq]
  obtain before | member := keeps.home area standing
  · exact home area before
  · exact member

theorem wellFormed (keeps : image.Keeps after) (sound : image.WellFormed) : after.WellFormed :=
  sound.of_same_layout keeps.sections_eq keeps.length_eq

theorem refl (image : Image) : image.Keeps image :=
  ⟨rfl, rfl, rfl, fun _ standing => Or.inl standing, fun _ _ => rfl⟩

theorem trans (first : image.Keeps middle) (second : middle.Keeps after) : image.Keeps after := by
  refine ⟨second.text_eq.trans first.text_eq, second.data_eq.trans first.data_eq,
    second.length_eq.trans first.length_eq, ?_, ?_⟩
  · intro home standing
    obtain before | member := second.home home standing
    · exact first.home home before
    · exact Or.inr (first.sections_eq ▸ member)
  · intro sound home
    rw [second.table_eq (first.wellFormed sound) (first.atHome home), first.table_eq sound home]

theorem of_overwrite {offset : Nat} {data : Bytes} (behind : Header.bssAddressField ≤ offset) :
    image.Keeps (image.overwrite offset data) := by
  refine ⟨rfl, rfl, ?_, fun _ standing => Or.inl standing, ?_⟩
  · rw [bytes_overwrite, length_overwrite]
  · intro _ _
    rw [bytes_overwrite, take_overwrite_of_le behind]

end Keeps

/-- An edit that leaves the sections alone, whatever image it is made in. -/
def Keeping (edit : Edit ε α) : Prop :=
  ∀ image, Keeps image (edit.after image)

theorem Keeping.pure (value : α) : Keeping (pure value : Edit ε α) :=
  Keeps.refl

theorem Keeping.throw (fault : ε) : Keeping (throw fault : Edit ε α) :=
  Keeps.refl

theorem Keeping.bind {first : Edit ε α} {next : α → Edit ε β} (one : Keeping first)
    (other : ∀ value, Keeping (next value)) : Keeping (first >>= next) := by
  intro image
  have step := one image
  -- where the first edit fails the second one is not made
  unfold Edit.after
  rw [Edit.bind_apply]
  cases made : first image with
  | error fault middle =>
    rw [Edit.after_of_error made] at step
    exact step
  | ok value middle =>
    rw [Edit.after_of_ok made] at step
    exact step.trans (other value middle)

theorem seek_keeping (address : UInt32) : Keeping (seek address) := by
  intro image
  cases made : seek address image with
  | ok value after =>
    obtain ⟨area, found, rfl⟩ := seek_eq_ok made
    rw [Edit.after_of_ok made]
    refine ⟨rfl, rfl, rfl, ?_, fun _ _ => rfl⟩
    -- the new home is the section that was found, so it is one of the image
    intro home standing
    cases standing
    exact Or.inr (List.mem_of_find?_eq_some found)
  | error fault after =>
    rw [Edit.after_of_error made, seek_eq_error made]
    exact Keeps.refl image

theorem read_keeping (length : Nat) : Keeping (read length) := by
  intro image
  cases made : read length image with
  | ok found after =>
    obtain ⟨home, -, -, -, rfl⟩ := read_eq_ok made
    rw [Edit.after_of_ok made]
    exact ⟨rfl, rfl, rfl, fun _ standing => Or.inl standing, fun _ _ => rfl⟩
  | error fault after =>
    rw [Edit.after_of_error made, read_eq_error made]
    exact Keeps.refl image

theorem write_keeping (data : Bytes) : Keeping (write data) := by
  intro image
  cases made : write data image with
  | ok value after =>
    obtain ⟨home, at_home, -, rfl⟩ := write_eq_ok made
    rw [Edit.after_of_ok made]
    refine ⟨rfl, rfl, ?_, ?_, ?_⟩
    · rw [bytes_written, length_overwrite]
    · intro other standing
      cases standing
      exact Or.inl at_home
    · -- what is written lies in a section, and sections lie behind the header
      intro sound standing
      have behind := sound.behindHeader home (standing home at_home)
      rw [bytes_written, take_overwrite_of_le]
      exact Nat.le_trans (Nat.le_trans (by decide) behind) (Nat.le_add_right _ _)
  | error fault after =>
    rw [Edit.after_of_error made, write_eq_error made]
    exact Keeps.refl image

theorem readWord_keeping : Keeping readWord :=
  (read_keeping 4).bind fun _ => Keeping.pure _

theorem insertBranch_keeping (target source : UInt32) (link : Bool) :
    Keeping (insertBranch target source link) :=
  (seek_keeping source).bind fun _ => write_keeping _

theorem branchAt_keeping (address : UInt32) : Keeping (branchAt address) := by
  refine (seek_keeping address).bind fun _ => readWord_keeping.bind fun word => ?_
  cases Instruction.decode? word with
  | none => exact Keeping.throw _
  | some instruction =>
    by_cases known : instruction.isBranch = true
    · simp only [if_pos known]
      exact Keeping.pure _
    · simp only [if_neg known]
      exact Keeping.throw _

theorem applyWrites_keeping (writes : List Write) : Keeping (applyWrites writes) := by
  induction writes with
  | nil => exact Keeping.pure ()
  | cons first rest ih =>
    exact (seek_keeping _).bind fun _ => (write_keeping _).bind fun _ => ih

theorem absorbCode_keeping (depth : Nat) (code : Code) : Keeping (absorbCode depth code) := by
  intro image
  unfold Edit.after absorbCode
  by_cases outside : depth = 0
  · rw [if_pos outside]
    cases code.staticWrites? with
    | error fault => exact Keeps.refl image
    | ok found =>
      cases found with
      | none => exact Keeps.refl image
      | some writes =>
        dsimp only
        by_cases mapped : image.isMapped writes = true
        · have step := applyWrites_keeping writes image
          rw [if_pos mapped]
          cases made : applyWrites writes image with
          | ok value after =>
            rw [Edit.after_of_ok made] at step
            exact step
          | error fault after =>
            rw [Edit.after_of_error made] at step
            exact step
        · rw [if_neg mapped]
          exact Keeps.refl image
  · rw [if_neg outside]
    exact Keeps.refl image

theorem absorbCodes_keeps (depth : Nat) (codes : List Code) (image : Image) :
    image.Keeps (absorbCodes depth codes image).image := by
  induction codes generalizing depth image with
  | nil => exact Keeps.refl image
  | cons code later ih =>
    -- a fault ends the pass, with what the codes before it have done
    have step := absorbCode_keeping depth code image
    rw [absorbCodes]
    cases made : absorbCode depth code image with
    | error fault after =>
      rw [Edit.after_of_error made] at step
      exact step
    | ok fate after =>
      rw [Edit.after_of_ok made] at step
      exact step.trans (ih _ after)

/-! ### What an operation can do -/

/-- An operation leaves the sections alone or adds one. -/
theorem after_cases (image : Image) (operation : Operation) :
    image.Keeps (image.after operation) ∨
      ∃ payload area, image.Adds payload area (image.after operation) ∧
        (image.after operation).cursor = image.cursor := by
  cases operation with
  | seek address => exact Or.inl (seek_keeping address image)
  | seekBy delta => exact Or.inl (seek_keeping _ image)
  | read length => exact Or.inl (read_keeping length image)
  | write data => exact Or.inl (write_keeping data image)
  | append kind payload address =>
    cases made : Image.append kind payload address image with
    | ok area grown =>
      obtain ⟨-, -, adds⟩ := append_eq_ok made
      rw [after, Edit.after_of_ok made]
      exact Or.inr ⟨payload, area, adds, append_cursor made⟩
    | error fault left =>
      rw [after, Edit.after_of_error made, (append_eq_error made).1]
      exact Or.inl (Keeps.refl image)
  | install payload address =>
    cases made : Image.install payload address image with
    | ok area grown =>
      obtain ⟨-, -, adds⟩ := install_eq_ok made
      rw [after, Edit.after_of_ok made]
      exact Or.inr ⟨payload, area, adds, install_cursor made⟩
    | error fault left =>
      rw [after, Edit.after_of_error made, (install_eq_error made).1]
      exact Or.inl (Keeps.refl image)
  | setEntryPoint address => exact Or.inl (Keeps.of_overwrite (by decide))
  | setBss address size =>
    exact Or.inl ((Keeps.of_overwrite (by decide)).trans (Keeps.of_overwrite (by decide)))
  | insertBranch target source link => exact Or.inl (insertBranch_keeping target source link image)
  | branchAt address => exact Or.inl (branchAt_keeping address image)
  | absorb list => exact Or.inl (absorbCodes_keeps 0 list.codes image)

theorem length_le_after (image : Image) (operation : Operation) :
    image.bytes.length ≤ (image.after operation).bytes.length := by
  obtain keeps | ⟨payload, area, adds, -⟩ := after_cases image operation
  · exact Nat.le_of_eq keeps.length_eq.symm
  · exact adds.length_le

theorem sectionsOf_prefix_after (image : Image) (operation : Operation) (kind : SectionKind) :
    image.sectionsOf kind <+: (image.after operation).sectionsOf kind := by
  obtain keeps | ⟨payload, area, adds, -⟩ := after_cases image operation
  · exact keeps.sectionsOf_eq kind ▸ List.prefix_rfl
  · rw [adds.sectionsOf_eq]
    exact List.prefix_append _ _

/-! ### Consistent images -/

/-- Lists, header and cursor of an image agree on its sections. -/
structure IsConsistent (image : Image) : Prop where
  layout : image.WellFormed
  room : ∀ kind, (image.sectionsOf kind).length ≤ kind.capacity
  /-- The section in a list is the one its slot of the header describes. -/
  listed : ∀ kind index area, (image.sectionsOf kind)[index]? = some area →
    area = Header.sectionAt image.bytes kind (kind.firstSlot + index)
  home : image.AtHome

namespace IsConsistent

variable {image after : Image}

theorem slot_lt (sound : image.IsConsistent) {kind : SectionKind} {index : Nat} {area : Section}
    (found : (image.sectionsOf kind)[index]? = some area) : kind.firstSlot + index < 18 := by
  have inside := (List.getElem?_eq_some_iff.mp found).1
  exact SectionKind.slot_lt (Nat.lt_of_lt_of_le inside (sound.room kind))

theorem of_keeps (sound : image.IsConsistent) (keeps : image.Keeps after) :
    after.IsConsistent := by
  refine ⟨keeps.wellFormed sound.layout, ?_, ?_, keeps.atHome sound.home⟩
  · intro kind
    rw [keeps.sectionsOf_eq]
    exact sound.room kind
  · intro kind index area found
    rw [keeps.sectionsOf_eq] at found
    rw [Header.sectionAt_of_take_eq (keeps.table_eq sound.layout sound.home) kind
      (sound.slot_lt found)]
    exact sound.listed kind index area found

theorem of_adds (sound : image.IsConsistent) {payload : Bytes} {area : Section}
    (adds : image.Adds payload area after) (cursor : after.cursor = image.cursor)
    (small : (padTo sectionAlignment image.bytes).length < UInt32.size) : after.IsConsistent := by
  have header := sound.layout.header
  refine ⟨adds.wellFormed small sound.layout, ?_, ?_, ?_⟩
  · intro kind
    have room := adds.room
    have before := sound.room kind
    rw [adds.sectionsOf_eq, List.length_append]
    split
    next same =>
      rw [same] at room
      exact room
    · exact before
  · -- an old section keeps its slot, and the new one is described by the next
    intro kind index other found
    obtain old | ⟨rfl, rfl, rfl⟩ := adds.getElem?_sectionsOf found
    · have inside := (List.getElem?_eq_some_iff.mp old).1
      have differs : kind.firstSlot + index ≠ area.slot := by
        rw [adds.slot_eq]
        refine SectionKind.slot_ne (Nat.lt_of_lt_of_le inside (sound.room kind)) adds.room ?_
        rintro rfl
        exact Nat.ne_of_lt inside
      rw [adds.sectionAt_of_ne header kind (sound.slot_lt old) differs]
      exact sound.listed kind index other old
    · rw [← adds.slot_eq]
      exact (adds.sectionAt_self header).symm
  · intro home standing
    rw [cursor] at standing
    exact (adds.mem_sections home).mpr (Or.inl (sound.home home standing))

theorem step (sound : image.IsConsistent) {operation : Operation}
    (small : (image.after operation).bytes.length < UInt32.size) :
    (image.after operation).IsConsistent := by
  obtain keeps | ⟨payload, area, adds, cursor⟩ := after_cases image operation
  · exact sound.of_keeps keeps
  · -- the new section begins inside the file as it is after the step
    have padded : (padTo sectionAlignment image.bytes).length < UInt32.size := by
      rw [adds.length_eq] at small
      omega
    exact sound.of_adds adds cursor padded

end IsConsistent

/-! ### What needs no bound -/

/-- The sections of an image lie in its file, share no addresses, and are listed by their slots. -/
structure IsLaidOut (image : Image) : Prop where
  inFile : ∀ area ∈ image.sections, area.fileStop ≤ image.bytes.length
  apart : image.sections.Pairwise Section.Apart
  slot_eq : ∀ kind index area, (image.sectionsOf kind)[index]? = some area →
    area.slot = kind.firstSlot + index

theorem IsConsistent.isLaidOut {image : Image} (sound : image.IsConsistent) : image.IsLaidOut := by
  refine ⟨sound.layout.inFile, sound.layout.apart, fun kind index area found => ?_⟩
  rw [sound.listed kind index area found]
  rfl

theorem IsLaidOut.step {image : Image} (laid : image.IsLaidOut) (operation : Operation) :
    (image.after operation).IsLaidOut := by
  obtain keeps | ⟨payload, area, adds, -⟩ := after_cases image operation
  · refine ⟨?_, ?_, ?_⟩
    · rw [keeps.sections_eq, keeps.length_eq]
      exact laid.inFile
    · rw [keeps.sections_eq]
      exact laid.apart
    · intro kind
      rw [keeps.sectionsOf_eq]
      exact laid.slot_eq kind
  · refine ⟨adds.inFile laid.inFile, adds.apart laid.apart, ?_⟩
    intro kind index other found
    obtain old | ⟨rfl, rfl, rfl⟩ := adds.getElem?_sectionsOf found
    · exact laid.slot_eq kind index other old
    · exact adds.slot_eq

/-- Text sections stand in their list in the order of their slots. -/
theorem IsLaidOut.pairwise_slot {image : Image} (laid : image.IsLaidOut) :
    image.text.Pairwise (·.slot < ·.slot) := by
  rw [List.pairwise_iff_getElem]
  intro first second one other order
  rw [laid.slot_eq .text first _ (List.getElem?_eq_getElem one),
    laid.slot_eq .text second _ (List.getElem?_eq_getElem other)]
  omega

/-! ### Where a run begins -/

theorem isConsistent_empty : empty.IsConsistent := by
  refine ⟨⟨?_, ?_, ?_, List.Pairwise.nil⟩, ?_, ?_, ?_⟩
  · exact Nat.le_of_eq Array.size_replicate.symm
  · intro area member
    cases member
  · intro area member
    cases member
  · intro kind
    cases kind <;> exact Nat.zero_le _
  · intro kind index area found
    cases kind <;> cases found
  · intro home standing
    cases standing

end Image

namespace Header

theorem length_usedSections_le (header : Bytes) (kind : SectionKind) :
    (usedSections header kind).length ≤ kind.capacity := by
  have shorter := (List.takeWhile_prefix (l := kind.slots.map (sectionAt header kind))
    (·.fileOffset ≠ 0)).length_le
  rw [List.length_map, SectionKind.slots, List.length_range'] at shorter
  exact shorter

theorem getElem?_usedSections {header : Bytes} {kind : SectionKind} {index : Nat} {area : Section}
    (found : (usedSections header kind)[index]? = some area) :
    area = sectionAt header kind (kind.firstSlot + index) := by
  obtain ⟨rest, whole⟩ := List.takeWhile_prefix (l := kind.slots.map (sectionAt header kind))
    (·.fileOffset ≠ 0)
  -- the used sections are the first ones of all slots, and these are numbered in a row
  have inside := (List.getElem?_eq_some_iff.mp found).1
  have slot : (kind.slots.map (sectionAt header kind))[index]? = some area := by
    rw [← whole]
    exact (List.getElem?_append_left inside).trans found
  rw [List.getElem?_map, SectionKind.slots, Option.map_eq_some_iff] at slot
  obtain ⟨number, known, rfl⟩ := slot
  obtain ⟨_, rfl⟩ := List.getElem?_eq_some_iff.mp known
  rw [List.getElem_range', Nat.one_mul]

end Header

theorem mem_of_firstInFile? {sections : List Section} {first : Section}
    (found : firstInFile? sections = some first) : first ∈ sections := by
  induction sections generalizing first with
  | nil => cases found
  | cons area rest ih =>
    rw [firstInFile?] at found
    split at found
    · cases found
      exact List.mem_cons_self
    next other later =>
      split at found <;> cases found
      · exact List.mem_cons_of_mem area (ih later)
      · exact List.mem_cons_self

namespace Image

theorem sectionsOf_ofBytes {bytes : Bytes} {image : Image} (opened : ofBytes bytes = .ok image)
    (kind : SectionKind) : image.sectionsOf kind = Header.usedSections bytes kind := by
  obtain ⟨-, text, data, -, -⟩ := ofBytes_eq_ok opened
  cases kind
  · exact text
  · exact data

theorem atHome_ofBytes {bytes : Bytes} {image : Image} (opened : ofBytes bytes = .ok image) :
    image.AtHome := by
  simp only [ofBytes] at opened
  split at opened
  · cases opened
  · split at opened
    · cases opened
    · cases opened
      intro home standing
      dsimp only at standing
      split at standing
      next first found =>
        cases standing
        exact mem_of_firstInFile? found
      · cases standing

theorem isConsistent_ofBytes {bytes : Bytes} {image : Image}
    (opened : ofBytes bytes = .ok image) : image.IsConsistent := by
  refine ⟨wellFormed_of_ofBytes opened, ?_, ?_, atHome_ofBytes opened⟩
  · intro kind
    rw [sectionsOf_ofBytes opened]
    exact Header.length_usedSections_le bytes kind
  · intro kind index area found
    rw [sectionsOf_ofBytes opened] at found
    rw [bytes_ofBytes opened]
    exact Header.getElem?_usedSections found

theorem isConsistent_of_made {start : Image}
    (made : start = empty ∨ ∃ bytes, ofBytes bytes = .ok start) : start.IsConsistent := by
  obtain rfl | ⟨bytes, opened⟩ := made
  · exact isConsistent_empty
  · exact isConsistent_ofBytes opened

/-! ### Runs -/

theorem run_append (image : Image) (earlier later : List Operation) :
    image.run (earlier ++ later) = (image.run earlier).run later :=
  List.foldl_append

theorem length_le_run (image : Image) (operations : List Operation) :
    image.bytes.length ≤ (image.run operations).bytes.length := by
  induction operations generalizing image with
  | nil => exact Nat.le_refl _
  | cons operation later ih =>
    exact Nat.le_trans (length_le_after image operation) (ih (image.after operation))

theorem sectionsOf_prefix_run (image : Image) (operations : List Operation) (kind : SectionKind) :
    image.sectionsOf kind <+: (image.run operations).sectionsOf kind := by
  induction operations generalizing image with
  | nil => exact List.prefix_rfl
  | cons operation later ih =>
    exact (sectionsOf_prefix_after image operation kind).trans (ih (image.after operation))

/-- However large the file becomes, the sections stay laid out. -/
theorem isLaidOut_run {start : Image} (made : start = empty ∨ ∃ bytes, ofBytes bytes = .ok start)
    (operations : List Operation) : (start.run operations).IsLaidOut := by
  have begins := (isConsistent_of_made made).isLaidOut
  clear made
  induction operations generalizing start with
  | nil => exact begins
  | cons operation later ih => exact ih (begins.step operation)

theorem inFile_run {start : Image} (made : start = empty ∨ ∃ bytes, ofBytes bytes = .ok start)
    (operations : List Operation) :
    ∀ area ∈ (start.run operations).sections,
      area.fileStop ≤ (start.run operations).bytes.length :=
  (isLaidOut_run made operations).inFile

/-- What a run preserves. The file only grows, so a bound on its length at the end holds before
every step. -/
theorem IsConsistent.run {image : Image} (sound : image.IsConsistent) {operations : List Operation}
    (small : (image.run operations).bytes.length < UInt32.size) :
    (image.run operations).IsConsistent := by
  -- the induction goes on from the image after the first operation, which is consistent again
  induction operations generalizing image with
  | nil => exact sound
  | cons operation later ih =>
    have before := length_le_run (image.after operation) later
    exact ih (sound.step (Nat.lt_of_le_of_lt before small)) small

/-- Whatever is done to an image, its lists, its header and its cursor agree on its sections, an
address is in one of them at most, and each of them stays. -/
theorem run_isConsistent {start : Image} {operations : List Operation}
    (made : start = empty ∨ ∃ bytes, ofBytes bytes = .ok start)
    (small : (start.run operations).bytes.length < UInt32.size) :
    (start.run operations).IsConsistent ∧
    (∀ address first second, first ∈ (start.run operations).sections →
      second ∈ (start.run operations).sections → first.Contains address →
      second.Contains address → first = second) ∧
    ∀ earlier later kind, operations = earlier ++ later →
      (start.run earlier).sectionsOf kind <+: (start.run operations).sectionsOf kind := by
  have begins : start.IsConsistent := by
    obtain rfl | ⟨bytes, opened⟩ := made
    · exact isConsistent_empty
    · exact isConsistent_ofBytes opened
  have sound := begins.run small
  refine ⟨sound, ?_, ?_⟩
  · intro address first second one other here there
    exact sound.layout.eq_of_contains one other here there
  · -- what comes later in a run is a run from where the earlier part ended
    rintro earlier later kind rfl
    rw [run_append]
    exact sectionsOf_prefix_run _ later kind

/-- A section is added and written in. The last write and another section are refused. -/
def growing : List Operation := [
  .append .text [1, 2, 3, 4] 0x80003100,
  .seek 0x80003102,
  .write [8, 9],
  .write [10],
  .install [5] 0x80003101]

theorem run_isConsistent_growing :
    (empty.run growing).bytes.length < UInt32.size ∧
    (empty.run growing).sections.length = 1 ∧ (empty.run growing).IsConsistent := by
  have small : (empty.run growing).bytes.length < UInt32.size := by decide +kernel
  exact ⟨small, by decide +kernel, (run_isConsistent (Or.inl rfl) small).1⟩

end Image

end CubePatch
