import CubePatch.Proofs.Build.Failure

/-!
Where a payload with a loader begins and ends.

The address of the loader is checked to be an address of main memory, whether it is given or
searched for. The length of the payload is known at that time, and the search looks for a gap of that
length, but the end of the payload is only compared with the end of the address space.

## Main result

`patchImage_extent`: a payload with a loader starts in main memory, and it ends there exactly if its
parts are not longer than the memory behind the address of the loader. `payload_leaves_memory` shows
payloads that are longer.
-/
namespace CubePatch

/-- Whether a section lies in main memory from its start to its end. -/
def Section.InMainMemory (area : Section) : Prop :=
  memoryStart.toNat ≤ area.loadAddress.toNat ∧ area.stop ≤ memoryStop.toNat

instance (area : Section) : Decidable area.InMainMemory :=
  inferInstanceAs (Decidable (_ ∧ _))

/-- The section that is added has the address and the length of the payload, whatever the image is
like. -/
theorem Installation.area_eq {start out : Image} {codes : CodeList} {handler : Handler}
    {loader : Bootstrap} {settings : PatchSettings} {entryPoint address : UInt32}
    (stages : Installation start codes handler loader settings entryPoint (some address) out) :
    stages.area.loadAddress = address ∧
      stages.area.size.toNat = loader.length + handler.length + codes.size := by
  obtain ⟨-, load, adds⟩ := Image.install_eq_ok stages.added
  obtain ⟨at_address, length⟩ := payloadFor_length stages.made
  have moved := (Handler.withTrampoline_eq_ok stages.trampoline).2
  exact ⟨load.trans at_address, by rw [adds.size_eq, length, moved]⟩

/-- A payload with a loader starts in main memory. It ends there exactly if loader, handler and
codes are not longer than the memory from its start on; a gap that was searched for only has to end
in the address space. -/
theorem patchImage_extent {image out : Image} {codes : CodeList} {handler : Handler}
    {loader : Bootstrap} {settings : PatchSettings} {report : BuildReport} {area : Section}
    (patched : (patchImage image codes handler loader settings).outcome = .ok (out, report))
    (placed : report.placement = .arena) (added : report.area = some area) :
    (memoryStart ≤ area.loadAddress ∧ area.loadAddress < memoryStop) ∧
    area.size.toNat = loader.length + handler.length + report.codesLength ∧
    (area.InMainMemory ↔
      loader.length + handler.length + report.codesLength ≤
        memoryStop.toNat - area.loadAddress.toNat) ∧
    (∀ given, settings.initAddress = some given → area.loadAddress = given) ∧
    -- the gap is as long as the payload was before codes were absorbed
    (settings.initAddress = none → image.gapStart ≤ area.loadAddress ∧
      (loader.length + handler.length + (codes.guarded settings).size < UInt32.size →
        area.stop ≤ addressTop)) := by
  obtain ⟨prepared, init, middle, left, counts, -, preparing, absorbing, length_eq, finish⟩ :=
    patchImage_stages patched
  obtain ⟨-, -, no_area⟩ | ⟨-, stages, -, -, -, area_eq⟩ := finish
  · rw [no_area] at added
    cases added
  rw [area_eq] at added
  cases added
  rw [placed] at preparing
  obtain ⟨address, rfl, rfl, chosen⟩ := prepare_arena_eq_ok preparing
  obtain ⟨inside, origin⟩ := chooseInit_eq_ok chosen
  obtain ⟨load, size⟩ := stages.area_eq
  rw [length_eq]
  have begins := UInt32.le_iff_toNat_le.mp inside.1
  have before := UInt32.lt_iff_toNat_lt.mp inside.2
  refine ⟨load.symm ▸ inside, size, ?_, ?_, ?_⟩
  · unfold Section.InMainMemory Section.stop
    rw [load, size]
    omega
  · intro given asked
    obtain same | ⟨searched, -⟩ := origin
    · exact load.trans (Option.some.inj (same.symm.trans asked))
    · cases searched.symm.trans asked
  · intro searched
    obtain same | ⟨-, later, fits, -⟩ := origin
    · cases searched.symm.trans same
    refine ⟨load.symm ▸ later, fun small => ?_⟩
    -- what is installed is not longer than what room was found for
    have fewer := CodeList.size_le_of_sublist (absorbIfAsked_sublist absorbing)
    rw [UInt32.toNat_ofNat_of_lt' small] at fits
    unfold Section.stop
    rw [load, size]
    omega

theorem patchImage_extent_mixedCodes : ∃ out report area,
    (patchImage hookableImage mixedCodes bareHandler bareLoader fullSettings).outcome =
      .ok (out, report) ∧
    report.placement = .arena ∧ report.area = some area ∧
    area.loadAddress = 0x80005000 ∧
    (area.InMainMemory ↔ bareLoader.length + bareHandler.length + report.codesLength ≤
      memoryStop.toNat - area.loadAddress.toNat) := by
  obtain ⟨out, report, area, patched, placed, added⟩ := patchImage_mixedCodes
  obtain ⟨-, -, ends, given, -⟩ := patchImage_extent patched placed added
  exact ⟨out, report, area, patched, placed, added, given _ rfl, ends⟩

/-- The sample file with zeroed memory near the end of main memory. -/
def edgeFile : Bytes :=
  overwrite hookableFile Header.bssAddressField (wordBytes 0x817FFF00)

def edgeImage : Image :=
  ⟨edgeFile.toArray, [hookableArea], [], ⟨0x80003100, some hookableArea⟩⟩

set_option maxRecDepth 4000 in
theorem ofBytes_edgeFile : Image.ofBytes edgeFile = .ok edgeImage := by rfl

/-- Whether the address is searched for or given, a payload that starts close enough to the end of
main memory leaves it, and the build succeeds. -/
theorem payload_leaves_memory :
    Image.ofBytes edgeFile = .ok edgeImage ∧
    ∀ choice ∈ [none, some 0x817FFFF0], ∃ out report area,
      (patchImage edgeImage mixedCodes bareHandler bareLoader
        { fullSettings with initAddress := choice }).outcome = .ok (out, report) ∧
      report.placement = .arena ∧ report.area = some area ∧ ¬ area.InMainMemory := by
  have leaves : ([none, some 0x817FFFF0].all fun choice =>
      (patchImage edgeImage mixedCodes bareHandler bareLoader
        { fullSettings with initAddress := choice }).outcome.toOption.any fun result =>
          decide (result.2.placement = .arena) &&
            result.2.area.any fun area => decide ¬ area.InMainMemory) = true := by
    decide +kernel
  refine ⟨ofBytes_edgeFile, fun choice member => ?_⟩
  obtain ⟨⟨out, report⟩, patched, shown⟩ := Logged.exists_of_any (List.all_eq_true.mp leaves choice member)
  obtain ⟨placed, found⟩ := Bool.and_eq_true_iff.mp shown
  obtain ⟨area, added, outside⟩ := (Option.any_eq_true _ _).mp found
  exact ⟨out, report, area, patched, of_decide_eq_true placed, added, of_decide_eq_true outside⟩

end CubePatch
