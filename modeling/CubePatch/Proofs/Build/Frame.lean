import CubePatch.Proofs.Absorption.Exactness
import CubePatch.Proofs.Build.Installation

/-!
What a build changes in the file of an image.

## Main result

`patchImage_frame`: a build makes the writes of absorbed codes and, if codes are left, adds one
section. For the section it writes three words of the header, the entry point if there is a loader,
and the branch at the hook. All other bytes are those of the padded file with the payload behind it.
-/
namespace CubePatch

/-- The header is out of reach of absorbed codes. -/
theorem Image.take_absorbedBytes {image : Image} (sound : image.WellFormed) (codes : CodeList)
    (settings : PatchSettings) :
    (image.absorbedBytes codes settings).take headerSize = image.bytes.take headerSize := by
  unfold absorbedBytes
  split
  · exact take_overwriteAll_of_le (headerSize_le_of_mem_placed sound _)
  · rfl

/-- What a build that adds a section has done to the image it began with, and nothing else. -/
structure IsAnnounced (image : Image) (codes : CodeList) (handler : Handler) (loader : Bootstrap)
    (settings : PatchSettings) (report : BuildReport) (area : Section) (out : Image) : Prop where
  /-- The section takes the first free slot, of text if there is one and of data otherwise. -/
  listed : Header.nextSlot? image.bytes = some (area.kind, area.slot)
  described : Header.sectionAt out.bytes area.kind area.slot = area
  /-- It stands behind the end of the file. -/
  fileOffset_eq : area.fileOffset.toNat = roundUp image.bytes.length Image.sectionAlignment
  init_iff : report.initAddress.isSome = true ↔ report.placement = .arena
  /-- Only the announced words differ from the padded file and the payload. -/
  changed : ∃ hook replaced moved left payload place,
    report.hookAddress = some hook ∧ handler.withTrampoline hook replaced = .ok moved ∧
    left.codes = settings.inserted report.placement ++ image.leftCodes codes settings ∧
    (payloadFor left moved loader settings hook image.entryPoint report.initAddress).outcome =
      .ok payload ∧
    area.loadAddress = payload.address ∧ area.size.toNat = payload.bytes.length ∧
    (∃ home ∈ out.sections, home.Holds hook 4 ∧ home.placeOf hook = place) ∧
    headerSize ≤ place ∧ place + 4 ≤ out.bytes.length ∧
    let words := installedWords area report.initAddress place (branchWord hook handler.entry false)
    let whole := padTo Image.sectionAlignment (image.absorbedBytes codes settings) ++ payload.bytes
    out.bytes = overwriteAll whole words ∧
    ∀ position, (∀ write ∈ words, ¬ (write.1 ≤ position ∧ position < write.1 + write.2.length)) →
      out.bytes[position]? = whole[position]?
  /-- All other slots describe what they described. -/
  others : ∀ kind, ∀ slot ∈ SectionKind.slots kind, slot ≠ area.slot →
    Header.sectionAt out.bytes kind slot = Header.sectionAt image.bytes kind slot
  bss_eq : out.bssAddress = image.bssAddress ∧ out.bssSize = image.bssSize
  entry_eq : out.entryPoint = report.initAddress.getD image.entryPoint

theorem SectionKind.lt_of_mem_slots {kind : SectionKind} {slot : Nat} (member : slot ∈ kind.slots) :
    slot < 18 := by
  cases kind <;> simp only [slots, firstSlot, capacity, List.mem_range'_1] at member <;> omega

/-- The slot a section is added in is the first free one. -/
theorem Image.nextSlot?_eq {file : Bytes} {image : Image} (opened : Image.ofBytes file = .ok image)
    {kind : SectionKind} (chosen : kind = image.freeKind)
    (room : (image.sectionsOf kind).length < kind.capacity) :
    Header.nextSlot? file = some (kind, kind.firstSlot + (image.sectionsOf kind).length) := by
  obtain ⟨-, text, data, -, -⟩ := ofBytes_eq_ok opened
  unfold Header.nextSlot?
  rw [Header.freeSlot?_eq, Header.freeSlot?_eq, ← text, ← data]
  subst chosen
  unfold freeKind at room ⊢
  by_cases free : image.text.length < SectionKind.text.capacity
  · simp only [if_pos free]
    rfl
  · simp only [if_neg free] at room ⊢
    have spare : image.data.length < SectionKind.data.capacity := room
    rw [if_pos spare]
    rfl

/-- What the stages of an installation come to. -/
theorem Installation.isAnnounced {file : Bytes} {image middle out : Image} {codes left : CodeList}
    {handler : Handler} {loader : Bootstrap} {settings : PatchSettings} {init : Option UInt32}
    {report : BuildReport} (opened : Image.ofBytes file = .ok image)
    (small : roundUp file.length Image.sectionAlignment < UInt32.size)
    (absorbed : IsAbsorbed image codes settings report.placement middle left)
    (init_iff : init.isSome = true ↔ report.placement = .arena)
    (stages : Installation middle left handler loader settings image.entryPoint init out)
    (init_eq : report.initAddress = init) (hook_eq : report.hookAddress = some stages.hook) :
    IsAnnounced image codes handler loader settings report stages.area out := by
  subst init_eq
  have sound := Image.wellFormed_of_ofBytes opened
  have start := absorbed.wellFormed sound
  have padded : (padTo Image.sectionAlignment middle.bytes).length =
      roundUp file.length Image.sectionAlignment := by
    rw [length_padTo _ _ (by decide), absorbed.length_eq, Image.bytes_ofBytes opened]
  obtain ⟨kind, load, adds⟩ := stages.adds start
  obtain ⟨grown, -, home, member, held, bytes⟩ := stages.effect start (padded ▸ small)
  obtain ⟨behind, inside⟩ := Image.place_in_file grown member held
  have slot := adds.slot_lt
  -- neither absorbed codes nor what is put behind the file reach the header
  have header :
      (padTo Image.sectionAlignment middle.bytes ++ stages.payload.bytes).take headerSize =
        image.bytes.take headerSize := by
    rw [padTo, List.append_assoc, List.take_append_of_le_length start.header, absorbed.bytes,
      Image.take_absorbedBytes sound]
  have long : headerSize ≤
      (padTo Image.sectionAlignment middle.bytes ++ stages.payload.bytes).length := by
    have := start.header
    rw [padTo, List.length_append, List.length_append]
    omega
  refine ⟨?_, ?_, ?_, init_iff, ?_, ?_, ?_, ?_⟩
  · have room := adds.room
    rw [absorbed.sectionsOf_eq] at room
    rw [adds.slot_eq, absorbed.sectionsOf_eq, Image.bytes_ofBytes opened]
    exact Image.nextSlot?_eq opened (kind.trans absorbed.freeKind_eq) room
  · rw [bytes]
    exact sectionAt_installed_self behind slot long
  · rw [adds.fileOffset_eq (padded ▸ small), padded, Image.bytes_ofBytes opened]
  · refine ⟨stages.hook, stages.replaced, stages.moved, left, stages.payload,
      home.placeOf stages.hook, hook_eq, stages.trampoline, absorbed.codes_eq, stages.made, load,
      adds.size_eq, ⟨home, member, held, rfl⟩, behind, inside, ?_⟩
    rw [← absorbed.bytes]
    refine ⟨bytes, fun position missed => ?_⟩
    rw [bytes]
    exact getElem?_overwriteAll_of_missed missed
  · intro kind other listed differs
    rw [bytes, sectionAt_installed_of_ne behind slot kind (SectionKind.lt_of_mem_slots listed)
      differs]
    exact Header.sectionAt_congr header kind (SectionKind.lt_of_mem_slots listed)
  · -- the words of the tables stand in front of these two, the entry point behind them
    have kept {offset : Nat} (lower : Header.bssAddressField ≤ offset)
        (upper : offset + 4 ≤ Header.entryField) :
        wordAt out.bytes offset = wordAt image.bytes offset := by
      rw [bytes, wordAt_installed_of_between behind slot lower upper]
      exact wordAt_of_take_eq header (Nat.le_trans upper (by decide))
    rw [(Image.bss_eq out).1, (Image.bss_eq out).2, (Image.bss_eq image).1, (Image.bss_eq image).2]
    exact ⟨kept (by decide) (by decide), kept (by decide) (by decide)⟩
  · have entry : Header.entryField + 4 ≤ headerSize := by decide
    have known : wordAt _ Header.entryField = image.entryPoint :=
      (wordAt_of_take_eq header entry).trans (Image.entryPoint_eq image).symm
    rw [Image.entryPoint_eq, bytes, entryField_installed behind slot long, known]

/-- A build changes what it announces and nothing else. Without codes that are left it makes the
writes of absorbed codes; otherwise it adds a section too, and writes the words that go with it. -/
theorem patchImage_frame {file : Bytes} {image out : Image} {codes : CodeList} {handler : Handler}
    {loader : Bootstrap} {settings : PatchSettings} {report : BuildReport}
    (opened : Image.ofBytes file = .ok image)
    (small : roundUp file.length Image.sectionAlignment < UInt32.size)
    (patched : (patchImage image codes handler loader settings).outcome = .ok (out, report)) :
    (report.area = none ↔
      settings.inserted report.placement ++ image.leftCodes codes settings = []) ∧
    (report.area = none →
      out.bytes = image.absorbedBytes codes settings ∧ out.bytes.length = file.length ∧
        out.bytes.take headerSize = file.take headerSize ∧ out.entryPoint = image.entryPoint) ∧
    ∀ area, report.area = some area →
      IsAnnounced image codes handler loader settings report area out := by
  have sound := Image.wellFormed_of_ofBytes opened
  have same := Image.bytes_ofBytes opened
  obtain ⟨init, middle, left, init_iff, absorbed, -, finish⟩ := patchImage_eq_ok sound patched
  rw [← absorbed.codes_eq]
  obtain ⟨none_left, rfl, no_area⟩ | ⟨some_left, stages, init_eq, -, hook_eq, area_eq⟩ := finish
  · refine ⟨⟨fun _ => none_left, fun _ => no_area⟩, fun _ => ?_, ?_⟩
    · have header := Image.take_absorbedBytes sound codes settings
      have entry : Header.entryField + 4 ≤ headerSize := by decide
      refine ⟨absorbed.bytes, same ▸ absorbed.length_eq, ?_, ?_⟩
      · rw [absorbed.bytes, header, same]
      · rw [Image.entryPoint_eq, Image.entryPoint_eq, absorbed.bytes,
          wordAt_of_take_eq header entry]
    · intro area added
      rw [no_area] at added
      cases added
  · refine ⟨⟨?_, fun none_left => absurd none_left some_left⟩, ?_, ?_⟩
    · intro no_area
      rw [area_eq] at no_area
      cases no_area
    · intro no_area
      rw [area_eq] at no_area
      cases no_area
    · intro area added
      rw [area_eq] at added
      cases added
      exact stages.isAnnounced opened small absorbed init_iff init_eq hook_eq

/-! ### A small build -/

/-- Eight bytes loaded at `0x80003100`, the first word of which is a return. -/
def hookableArea : Section := ⟨.text, 0, 0x100, 0x80003100, 8⟩

def hookableFile : Bytes :=
  Header.describe (List.replicate headerSize 0) hookableArea ++ wordBytes returnWord ++ wordBytes 0

def hookableImage : Image :=
  ⟨hookableFile.toArray, [hookableArea], [], ⟨0x80003100, some hookableArea⟩⟩

/-- A handler that is nothing but the slot for the replaced instruction. -/
def bareHandler : Handler where
  base := 0x80001800
  payload := wordBytes Handler.slotMark ++ List.replicate 0xFC 0
  minLength_le := by decide +kernel

/-- A loader that is nothing but word tokens. -/
def bareLoader : Bootstrap where
  bytes := Token.wordTokens.flatMap fun entry => wordBytes entry.1
  heapOffset := 0
  keyOffset := 24
  heapOffset_eq := by decide +kernel
  keyOffset_eq := by decide +kernel

def fullSettings : PatchSettings where
  initAddress := some 0x80005000
  hookAddress := some 0x80003100
  placement := .arena
  optimize := true
  protect := true
  encrypt := true
  seed := 7

set_option maxRecDepth 4000 in
theorem ofBytes_hookableFile : Image.ofBytes hookableFile = .ok hookableImage := by rfl

theorem patchImage_mixedCodes : ∃ out report area,
    (patchImage hookableImage mixedCodes bareHandler bareLoader fullSettings).outcome =
      .ok (out, report) ∧ report.placement = .arena ∧ report.area = some area := by
  have added : ((patchImage hookableImage mixedCodes bareHandler bareLoader
      fullSettings).outcome.toOption.any fun result =>
        decide (result.2.placement = .arena) && result.2.area.isSome) = true := by
    decide +kernel
  obtain ⟨⟨out, report⟩, patched, shown⟩ := Logged.exists_of_any added
  obtain ⟨placed, found⟩ := Bool.and_eq_true_iff.mp shown
  obtain ⟨area, found⟩ := Option.isSome_iff_exists.mp found
  exact ⟨out, report, area, patched, of_decide_eq_true placed, found⟩

theorem patchImage_frame_mixedCodes :
    Image.ofBytes hookableFile = .ok hookableImage ∧
    roundUp hookableFile.length Image.sectionAlignment < UInt32.size ∧
    ∃ out report area,
      (patchImage hookableImage mixedCodes bareHandler bareLoader fullSettings).outcome =
        .ok (out, report) ∧
      report.area = some area ∧
      IsAnnounced hookableImage mixedCodes bareHandler bareLoader fullSettings report area out := by
  have small : roundUp hookableFile.length Image.sectionAlignment < UInt32.size := by
    decide +kernel
  obtain ⟨out, report, area, patched, -, added⟩ := patchImage_mixedCodes
  exact ⟨ofBytes_hookableFile, small, out, report, area, patched, added,
    (patchImage_frame ofBytes_hookableFile small patched).2.2 area added⟩

end CubePatch
