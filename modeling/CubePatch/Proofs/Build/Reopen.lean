import CubePatch.Proofs.Build.Hook
import CubePatch.Proofs.Image.Reopen

/-!
What is seen when an image is opened again that a build has left.

A build does nothing to an image that could not be done step by step: it makes the writes of absorbed
codes, looks at the hook, installs the payload, and writes the entry point and a branch. So what
holds of all runs holds of builds.

## Main result

`reopens_iff_isFreeAt`: after a run of operations, and after a build, an image is opened again as it
is exactly if the slots behind its sections were free in the file it was first opened from. For a
build that is one slot, behind that of the added section, and if it was not free the file does not
show one section more than before.
-/
namespace CubePatch

/-! ### Builds as runs -/

theorem Image.verifyHook_is_run {image after : Image} {address word : UInt32}
    (verified : verifyHook address image = .ok word after) :
    ∃ operations, after = image.run operations := by
  rw [verifyHook_apply] at verified
  split at verified
  · cases verified
  next stands seen reading =>
    obtain ⟨_, sought, seeking, reading⟩ := Edit.bind_eq_ok reading
    obtain ⟨found, read, taking, giving⟩ := Edit.bind_eq_ok reading
    cases giving
    have looked : seen = image.run [.seek address, .read 4] := by
      show seen = (Image.read 4).after ((Image.seek address).after image)
      rw [Edit.after_of_ok seeking, Edit.after_of_ok taking]
    split at verified
    · cases verified
      exact ⟨_, looked⟩
    · split at verified
      next branch passed decoding =>
        split at verified
        · cases verified
        · cases verified
          refine ⟨[.seek address, .read 4, .branchAt address], ?_⟩
          show after = (Image.branchAt address).after (image.run [.seek address, .read 4])
          rw [← looked, Edit.after_of_ok decoding]
      · cases verified
      · cases verified

theorem chooseHook_is_run {image after : Image} {settings : PatchSettings}
    {hook replaced : UInt32}
    (chosen : (chooseHook image settings).outcome = .ok (hook, replaced, after)) :
    ∃ operations, after = image.run operations := by
  obtain ⟨-, verified⟩ | ⟨-, -, -, rfl⟩ := chooseHook_cases chosen
  · exact Image.verifyHook_is_run verified
  · exact ⟨[], rfl⟩

theorem absorbIfAsked_is_run {image after : Image} {codes left : CodeList}
    {settings : PatchSettings} {counts : Option AbsorptionCounts}
    (absorbed : (absorbIfAsked image codes settings).outcome = .ok (after, left, counts)) :
    ∃ operations, after = image.run operations := by
  rw [outcome_absorbIfAsked] at absorbed
  split at absorbed
  · split at absorbed
    · cases absorbed
    · cases absorbed
      exact ⟨[.absorb codes], rfl⟩
  · cases absorbed
    exact ⟨[], rfl⟩

theorem Installation.is_run {start out : Image} {codes : CodeList} {handler : Handler}
    {loader : Bootstrap} {settings : PatchSettings} {entryPoint : UInt32} {init : Option UInt32}
    (stages : Installation start codes handler loader settings entryPoint init out) :
    ∃ operations, out = start.run operations := by
  obtain ⟨looking, looked⟩ := chooseHook_is_run stages.chosen
  have installed := Edit.after_of_ok stages.added
  have hooked := Edit.after_of_ok stages.hooked
  refine ⟨looking ++ (.install stages.payload.bytes stages.payload.address ::
    init.toList.map .setEntryPoint ++ [.insertBranch stages.moved.entry stages.hook false]), ?_⟩
  rw [Image.run_append, ← looked]
  cases init with
  | none =>
    show out = (Image.insertBranch _ _ _).after ((Image.install _ _).after stages.looked)
    rw [installed]
    exact hooked.symm
  | some address =>
    show out = (Image.insertBranch _ _ _).after
      (((Image.install _ _).after stages.looked).setEntryPoint address)
    rw [installed]
    exact hooked.symm

/-- A build that succeeds leaves what a run of operations leaves. -/
theorem patchImage_is_run {image out : Image} {codes : CodeList} {handler : Handler}
    {loader : Bootstrap} {settings : PatchSettings} {report : BuildReport}
    (patched : (patchImage image codes handler loader settings).outcome = .ok (out, report)) :
    ∃ operations, out = image.run operations := by
  obtain ⟨prepared, init, middle, left, counts, -, -, absorbing, -, finish⟩ :=
    patchImage_stages patched
  obtain ⟨first, rfl⟩ := absorbIfAsked_is_run absorbing
  obtain ⟨-, rfl, -⟩ | ⟨-, stages, -⟩ := finish
  · exact ⟨first, rfl⟩
  · obtain ⟨second, later⟩ := stages.is_run
    exact ⟨first ++ second, later.trans (Image.run_append _ _ _).symm⟩

/-- A build adds the section it reports to the list of its kind, and nothing to the other list. -/
theorem Installation.sectionsOf_eq {start out : Image} {codes : CodeList} {handler : Handler}
    {loader : Bootstrap} {settings : PatchSettings} {entryPoint : UInt32} {init : Option UInt32}
    (stages : Installation start codes handler loader settings entryPoint init out)
    (sound : start.WellFormed) (kind : SectionKind) :
    out.sectionsOf kind =
      start.sectionsOf kind ++ if stages.area.kind = kind then [stages.area] else [] := by
  obtain ⟨-, -, adds⟩ := stages.adds sound
  obtain ⟨home, -, -, text, data, -⟩ := stages.hook_written
  have installed : out.sectionsOf kind = stages.installed.sectionsOf kind := by
    cases kind
    · exact text
    · exact data
  rw [installed, adds.sectionsOf_eq]

/-- What is known of the lists and of the length of the file after a build. -/
theorem patchImage_sectionsOf {image out : Image} {codes : CodeList} {handler : Handler}
    {loader : Bootstrap} {settings : PatchSettings} {report : BuildReport}
    (sound : image.WellFormed)
    (patched : (patchImage image codes handler loader settings).outcome = .ok (out, report)) :
    (report.area = none → ∀ kind, out.sectionsOf kind = image.sectionsOf kind) ∧
    ∀ area, report.area = some area →
      area.slot = area.kind.firstSlot + (image.sectionsOf area.kind).length ∧
      (∀ kind, out.sectionsOf kind =
        image.sectionsOf kind ++ if area.kind = kind then [area] else []) ∧
      out.bytes.length =
        roundUp image.bytes.length Image.sectionAlignment + area.size.toNat := by
  obtain ⟨init, middle, left, -, absorbed, -, finish⟩ := patchImage_eq_ok sound patched
  obtain ⟨-, rfl, no_area⟩ | ⟨-, stages, -, -, -, area_eq⟩ := finish
  · refine ⟨fun _ kind => congrFun absorbed.sectionsOf_eq kind, ?_⟩
    intro area added
    rw [no_area] at added
    cases added
  · refine ⟨fun no_area => ?_, ?_⟩
    · rw [area_eq] at no_area
      cases no_area
    · intro area added
      obtain rfl : stages.area = area := Option.some.inj (area_eq.symm.trans added)
      have start := absorbed.wellFormed sound
      obtain ⟨-, -, adds⟩ := stages.adds start
      obtain ⟨home, -, -, -, -, bytes⟩ := stages.hook_written
      rw [← absorbed.sectionsOf_eq]
      refine ⟨adds.slot_eq, stages.sectionsOf_eq start, ?_⟩
      rw [bytes, stages.bytes_startedAt start, length_overwriteAll, List.length_append,
        length_padTo _ _ (by decide), absorbed.length_eq, adds.size_eq]

theorem Image.length_sections (image : Image) :
    image.sections.length = (image.sectionsOf .text).length + (image.sectionsOf .data).length :=
  List.length_append

/-- After a build an image is opened again as it is exactly if the slot behind that of the added
section was free in the file it was first opened from. If it was not, the file does not show one
section more than before. -/
theorem patchImage_reopens_iff {file : Bytes} {image out : Image} {codes : CodeList}
    {handler : Handler} {loader : Bootstrap} {settings : PatchSettings} {report : BuildReport}
    (opened : Image.ofBytes file = .ok image)
    (patched : (patchImage image codes handler loader settings).outcome = .ok (out, report))
    (small : out.bytes.length < UInt32.size) :
    (report.area = none → out.Reopens) ∧
    ∀ area, report.area = some area →
      (out.Reopens ↔ Header.IsFreeAt file area.kind (area.slot + 1)) ∧
      ((∃ again, Image.ofBytes out.bytes = .ok again ∧
          again.sections.length = image.sections.length + 1) ↔
        Header.IsFreeAt file area.kind (area.slot + 1)) := by
  obtain ⟨operations, rfl⟩ := patchImage_is_run patched
  have begins := Image.isConsistent_ofBytes opened
  have sound := begins.run small
  obtain ⟨unchanged, grown⟩ := patchImage_sectionsOf begins.layout patched
  have reopens := Image.run_reopens_iff opened small
  -- the file itself was read up to free slots
  have free : ∀ kind,
      Header.IsFreeAt file kind (kind.firstSlot + (image.sectionsOf kind).length) := by
    have before := begins.reopens_iff.mp (Image.reopens_of_ofBytes opened)
    rwa [Image.bytes_ofBytes opened] at before
  refine ⟨?_, ?_⟩
  · intro no_area
    refine reopens.mpr fun kind => ?_
    rw [unchanged no_area]
    exact free kind
  · intro area added
    obtain ⟨slot, lists, -⟩ := grown area added
    have one_slot : (image.run operations).Reopens ↔
        Header.IsFreeAt file area.kind (area.slot + 1) := by
      have own : area.kind.firstSlot + ((image.run operations).sectionsOf area.kind).length =
          area.slot + 1 := by
        rw [lists, if_pos rfl, List.length_append, List.length_singleton, slot, Nat.add_assoc]
      rw [reopens]
      refine ⟨fun all => own ▸ all area.kind, fun next kind => ?_⟩
      by_cases same : area.kind = kind
      · exact same ▸ own.symm ▸ next
      · rw [lists, if_neg same, List.append_nil]
        exact free kind
    have count : (image.run operations).sections.length = image.sections.length + 1 := by
      rw [Image.length_sections, Image.length_sections, lists, lists]
      cases area.kind <;> simp <;> omega
    refine ⟨one_slot, ?_⟩
    rw [← one_slot]
    constructor
    · rintro ⟨again, accepted, length⟩
      exact sound.reopens_of_length accepted (length.trans count.symm)
    · rintro ⟨again, accepted, text, data, -⟩
      refine ⟨again, accepted, ?_⟩
      rw [← count, Image.sections, Image.sections, text, data]

/-- Whatever is done to an image or built with it, its header lists its sections and nothing else
exactly if the slots behind them were free in the file it was first opened from. -/
theorem reopens_iff_isFreeAt {file : Bytes} {start : Image}
    (opened : Image.ofBytes file = .ok start) :
    (∀ operations, (start.run operations).bytes.length < UInt32.size →
      ((start.run operations).Reopens ↔ ∀ kind, Header.IsFreeAt file kind
        (kind.firstSlot + ((start.run operations).sectionsOf kind).length))) ∧
    ∀ codes handler loader settings out report,
      (patchImage start codes handler loader settings).outcome = .ok (out, report) →
      out.bytes.length < UInt32.size →
      (report.area = none → out.Reopens) ∧
      ∀ area, report.area = some area →
        (out.Reopens ↔ Header.IsFreeAt file area.kind (area.slot + 1)) ∧
        ((∃ again, Image.ofBytes out.bytes = .ok again ∧
            again.sections.length = start.sections.length + 1) ↔
          Header.IsFreeAt file area.kind (area.slot + 1)) := by
  refine ⟨fun operations => Image.run_reopens_iff opened, ?_⟩
  intro codes handler loader settings out report patched small
  exact patchImage_reopens_iff opened patched small

/-- A build for the sample image in low memory, with the section in the second slot of text. -/
private theorem patchImage_second (image : Image)
    (built : ((patchImage image mixedCodes bareHandler bareLoader
      (legacySettings (some 0x80003100))).outcome.toOption.any fun result =>
        result.2.area.any fun area =>
          decide (area.kind = .text ∧ area.slot = 1 ∧ area.size ≤ 0x1000)) = true)
    (opened : Image.ofBytes image.bytes = .ok image)
    (short : image.bytes.length ≤ 0x1000) :
    ∃ out report area,
      (patchImage image mixedCodes bareHandler bareLoader
        (legacySettings (some 0x80003100))).outcome = .ok (out, report) ∧
      report.area = some area ∧ area.kind = .text ∧ area.slot = 1 ∧
      out.bytes.length < UInt32.size := by
  obtain ⟨⟨out, report⟩, patched, shown⟩ := Logged.exists_of_any built
  obtain ⟨area, added, place⟩ := (Option.any_eq_true _ _).mp shown
  obtain ⟨kind, slot, size⟩ := of_decide_eq_true place
  refine ⟨out, report, area, patched, added, kind, slot, ?_⟩
  have sound := Image.wellFormed_of_ofBytes opened
  have length := ((patchImage_sectionsOf sound patched).2 area added).2.2
  have small : area.size.toNat ≤ 0x1000 := UInt32.le_iff_toNat_le.mp size
  rw [length, roundUp, Image.sectionAlignment, UInt32.size]
  omega

theorem reopens_iff_isFreeAt_mixedCodes :
    Image.ofBytes hookableFile = .ok hookableImage ∧
    ∃ out report area,
      (patchImage hookableImage mixedCodes bareHandler bareLoader
        (legacySettings (some 0x80003100))).outcome = .ok (out, report) ∧
      report.area = some area ∧ out.Reopens := by
  obtain ⟨out, report, area, patched, added, kind, slot, small⟩ :=
    patchImage_second hookableImage (by decide +kernel) ofBytes_hookableFile
      (by decide +kernel)
  have free : Header.IsFreeAt hookableFile area.kind (area.slot + 1) := by
    rw [kind, slot]
    decide +kernel
  refine ⟨ofBytes_hookableFile, out, report, area, patched, added, ?_⟩
  exact (((reopens_iff_isFreeAt ofBytes_hookableFile).2 _ _ _ _ out report patched small).2
    area added).1.mpr free

/-! ### Slots that were left over -/

/-- Eight bytes that a header describes in a slot behind a free one. -/
def leftoverArea : Section := ⟨.text, 2, 0x100, 0x80004000, 8⟩

def leftoverFile : Bytes :=
  Header.describe hookableFile leftoverArea

def leftoverImage : Image :=
  ⟨leftoverFile.toArray, [hookableArea], [], ⟨0x80003100, some hookableArea⟩⟩

/-- A section of four bytes is added. -/
def adding : List Image.Operation := [.append .text [1, 2, 3, 4] 0x80003108]

set_option maxRecDepth 4000 in
theorem ofBytes_leftoverFile : Image.ofBytes leftoverFile = .ok leftoverImage := by rfl

/-- A section that is added in front of a leftover slot brings up what is described there. -/
theorem leftover_comes_up :
    Image.ofBytes leftoverFile = .ok leftoverImage ∧
    ((leftoverImage.run adding).bytes.length < UInt32.size ∧
      (leftoverImage.run adding).text.length = 2 ∧ ¬ (leftoverImage.run adding).Reopens) ∧
    ∃ out report,
      (patchImage leftoverImage mixedCodes bareHandler bareLoader
        (legacySettings (some 0x80003100))).outcome = .ok (out, report) ∧
      report.area.isSome = true ∧ out.bytes.length < UInt32.size ∧
      ¬ ∃ again, Image.ofBytes out.bytes = .ok again ∧
        again.sections.length = leftoverImage.sections.length + 1 := by
  have taken : ¬ Header.IsFreeAt leftoverFile .text 2 := by decide +kernel
  refine ⟨ofBytes_leftoverFile, ?_, ?_⟩
  · have granted : leftoverImage.appendFault? .text [1, 2, 3, 4] 0x80003108 = none := by
      decide +kernel
    obtain ⟨area, grown, added⟩ : ∃ area grown,
        Image.append .text [1, 2, 3, 4] 0x80003108 leftoverImage = .ok area grown :=
      ⟨_, _, Image.append_of_granted granted⟩
    obtain ⟨kind, -, adds⟩ := Image.append_eq_ok added
    have stands : leftoverImage.run adding = grown := by
      rw [Image.run, adding, List.foldl_cons, List.foldl_nil, Image.after, Edit.after_of_ok added]
    have count : ((leftoverImage.run adding).sectionsOf .text).length = 2 := by
      rw [stands, adds.sectionsOf_eq, if_pos kind]
      rfl
    have small : (leftoverImage.run adding).bytes.length < UInt32.size := by
      rw [stands, adds.length_eq, length_padTo _ _ (by decide)]
      decide +kernel
    refine ⟨small, count, fun reopens => taken ?_⟩
    have free := (Image.run_reopens_iff ofBytes_leftoverFile small).mp reopens .text
    rwa [count] at free
  · obtain ⟨out, report, area, patched, added, kind, slot, small⟩ :=
      patchImage_second leftoverImage (by decide +kernel) ofBytes_leftoverFile
        (by decide +kernel)
    refine ⟨out, report, patched, Option.isSome_iff_exists.mpr ⟨area, added⟩, small, ?_⟩
    rw [((patchImage_reopens_iff ofBytes_leftoverFile patched small).2 area added).2, kind, slot]
    exact taken

end CubePatch
