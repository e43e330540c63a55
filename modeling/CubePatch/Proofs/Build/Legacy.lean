import CubePatch.Proofs.Build.Hook
import CubePatch.Proofs.Payload.Pointer

/-!
What a build without a loader leaves, and what it pays no attention to.

Without a loader there is nothing to decrypt codes, to reserve memory or to be placed, and no
protection code. Two such builds that differ in these choices only go through the same stages: they
say different things on their way and come to the same end. The section they add is the handler with
the codes behind it, where the handler looks for them.

## Main result

`patchImage_legacy`: builds in low memory that differ in what concerns a loader have the same
outcome, and one that adds a section leaves the handler, aimed at the codes that stand behind it.
-/
namespace CubePatch

/-! ### Builds side by side -/

/-- Two computations of two steps come to the same if their first steps do, and their second steps
do after what the first ones came to. -/
theorem Logged.outcome_bind_congr {first other : Logged ε α} {next later : α → Logged ε β}
    (same : first.outcome = other.outcome)
    (behind : ∀ value, first.outcome = .ok value → (next value).outcome = (later value).outcome) :
    (first >>= next).outcome = (other >>= later).outcome := by
  rw [outcome_bind, outcome_bind, ← same]
  cases done : first.outcome with
  | error fault => rfl
  | ok value => exact behind value done

/-- Without a loader, what concerns a loader changes nothing but what is told. -/
theorem outcome_patchImage_of_legacy (image : Image) (codes : CodeList) {handler : Handler}
    (loader : Bootstrap) {settings : PatchSettings}
    (legacy : settings.placement.resolve handler.base handler.length codes.size = .legacy)
    (other : Bootstrap) (protect encrypt : Bool) (seed : UInt64) (allocation initAddress : Option UInt32) :
    (patchImage image codes handler other
        { settings with protect, encrypt, seed, allocation, initAddress }).outcome =
      (patchImage image codes handler loader settings).outcome := by
  unfold patchImage
  dsimp only
  rw [legacy]
  refine Logged.outcome_bind_congr rfl ?_
  rintro ⟨prepared, init⟩ preparing
  -- the codes are taken as they are, and there is no address for a loader
  obtain ⟨rfl, rfl⟩ : prepared = codes ∧ init = none := by
    cases preparing
    exact ⟨rfl, rfl⟩
  refine Logged.outcome_bind_congr rfl fun _ _ => ?_
  refine Logged.outcome_bind_congr rfl fun ⟨middle, left, counts⟩ _ => ?_
  dsimp only
  by_cases empty : left.isEmpty = true
  · rw [if_pos empty, if_pos empty]
  rw [if_neg empty, if_neg empty]
  refine Logged.outcome_bind_congr rfl fun _ _ => ?_
  refine Logged.outcome_bind_congr rfl fun ⟨hook, replaced, looked⟩ _ => ?_
  refine Logged.outcome_bind_congr rfl fun moved _ => ?_
  -- this is the only stage left that reads one of the choices, and it does so to tell of it
  refine Logged.outcome_bind_congr ?_ fun _ _ => rfl
  rw [outcome_legacyPayload, outcome_legacyPayload]

/-! ### The section -/

/-- The codes that are left to be run, with the lines around them. -/
def Image.leftList (image : Image) (codes : CodeList) (settings : PatchSettings) : CodeList :=
  if settings.optimize then (codes.absorb image).remaining else codes

theorem absorbIfAsked_leftList {image middle : Image} {codes left : CodeList}
    {settings : PatchSettings} {counts : Option AbsorptionCounts}
    (run : (absorbIfAsked image codes settings).outcome = .ok (middle, left, counts)) :
    left = image.leftList codes settings := by
  rw [outcome_absorbIfAsked] at run
  unfold Image.leftList
  split at run
  next asked =>
    rw [if_pos asked]
    split at run
    · cases run
    · cases run
      rfl
  next unasked =>
    rw [if_neg unasked]
    cases run
    rfl

/-- The section of a build without a loader, as the handler finds it. -/
structure IsComplete (image : Image) (codes : CodeList) (handler : Handler)
    (settings : PatchSettings) (report : BuildReport) (area : Section) (out : Image) : Prop where
  load_eq : area.loadAddress = handler.base
  entry_eq : out.entryPoint = image.entryPoint
  parts : ∃ hook home moved, report.hookAddress = some hook ∧ home ∈ image.sections ∧
    home.Holds hook 4 ∧
    -- the handler carries out the word that stood at the hook when codes had been absorbed
    let replaced := wordAt (image.absorbedBytes codes settings) (home.placeOf hook)
    let place := handler.addressOf handler.length
    let list := image.leftList codes settings
    handler.withTrampoline hook replaced = .ok moved ∧
    out.sectionBytes area = (moved.setCodeListPointer place).payload ++ list.bytes ∧
    list.size = report.codesLength ∧
    -- the address that is filled in is the one the codes are loaded at
    place = area.loadAddress + UInt32.ofNat handler.length ∧
    slice (out.sectionBytes area) handler.length CodeList.magic.length = CodeList.magic ∧
    (handler.SlotIsApart →
      handler.IsFitted hook replaced place (moved.setCodeListPointer place))

theorem isComplete_of_legacy {file : Bytes} {image out : Image} {codes : CodeList}
    {handler : Handler} {loader : Bootstrap} {settings : PatchSettings} {report : BuildReport}
    {area : Section}
    (legacy : settings.placement.resolve handler.base handler.length codes.size = .legacy)
    (opened : Image.ofBytes file = .ok image)
    (ends : ∀ other ∈ image.sections, other.stop ≤ UInt32.size)
    (small : roundUp file.length Image.sectionAlignment < UInt32.size)
    (patched : (patchImage image codes handler loader settings).outcome = .ok (out, report))
    (added : report.area = some area) :
    IsComplete image codes handler settings report area out := by
  have sound := Image.wellFormed_of_ofBytes opened
  obtain ⟨prepared, init, middle, left, counts, placed, preparing, absorbing, length_eq, finish⟩ :=
    patchImage_stages patched
  replace placed := placed.trans legacy
  rw [placed] at preparing
  -- the codes are taken as they are, and there is no address for a loader
  obtain ⟨rfl, rfl⟩ : prepared = codes ∧ init = none := by
    cases preparing
    exact ⟨rfl, rfl⟩
  obtain rfl := absorbIfAsked_leftList absorbing
  have absorbed : IsAbsorbed image prepared settings report.placement middle
      (image.leftList prepared settings) :=
    absorbIfAsked_eq_ok sound (by rw [placed]; rfl) absorbing
  obtain ⟨-, -, no_area⟩ | ⟨-, stages, init_eq, -, hook_eq, area_eq⟩ := finish
  · rw [no_area] at added
    cases added
  rw [area_eq] at added
  cases added
  have start := absorbed.wellFormed sound
  have padded : (padTo Image.sectionAlignment middle.bytes).length < UInt32.size := by
    rw [length_padTo _ _ (by decide), absorbed.length_eq, Image.bytes_ofBytes opened]
    exact small
  obtain ⟨home, member, held, stands, shown⟩ :=
    stages.hook_in_start start padded (absorbed.sections_eq ▸ ends)
  obtain ⟨-, load, -⟩ := stages.adds start
  obtain ⟨at_base, -, joined⟩ := legacyPayload_eq_ok stages.made
  obtain ⟨base_eq, moved_length⟩ := Handler.withTrampoline_eq_ok stages.trampoline
  -- the trampoline has changed neither where the handler is nor where it ends
  have load_eq : stages.area.loadAddress = handler.base := by rw [load, at_base, base_eq]
  have place_eq : stages.moved.addressOf stages.moved.length = handler.addressOf handler.length := by
    rw [Handler.addressOf, Handler.addressOf, base_eq, moved_length]
  rw [place_eq] at joined
  have announced := stages.isAnnounced opened small absorbed (by rw [placed]; simp) init_eq hook_eq
  have trampoline := stages.trampoline
  rw [← stands, absorbed.bytes] at trampoline
  refine ⟨load_eq, ?_, stages.hook, home, stages.moved, hook_eq, absorbed.sections_eq ▸ member, held,
    trampoline, shown.trans joined, length_eq.symm, ?_, ?_,
    fun apart => Handler.isFitted apart trampoline _⟩
  · rw [announced.entry_eq, init_eq, Option.getD_none]
  · rw [load_eq, Handler.addressOf]
  · have ending : (stages.moved.setCodeListPointer
        (handler.addressOf handler.length)).payload.length = handler.length :=
      (Handler.length_setCodeListPointer _ _).trans moved_length
    have begun := (image.leftList prepared settings).slice_magic
      (stages.moved.setCodeListPointer (handler.addressOf handler.length)).payload
    rw [shown, joined]
    rwa [ending] at begun

/-- A build without a loader does not depend on what concerns a loader, and one that adds a section
leaves the handler there with the codes behind it, aimed at them. -/
theorem patchImage_legacy {image : Image} {codes : CodeList} {handler : Handler}
    {loader : Bootstrap} {settings : PatchSettings}
    (legacy : settings.placement.resolve handler.base handler.length codes.size = .legacy) :
    (∀ other protect encrypt seed allocation initAddress,
      (patchImage image codes handler other
          { settings with protect, encrypt, seed, allocation, initAddress }).outcome =
        (patchImage image codes handler loader settings).outcome) ∧
    ∀ file out report area, Image.ofBytes file = .ok image →
      (∀ part ∈ image.sections, part.stop ≤ UInt32.size) →
      roundUp file.length Image.sectionAlignment < UInt32.size →
      (patchImage image codes handler loader settings).outcome = .ok (out, report) →
      report.area = some area →
      IsComplete image codes handler settings report area out :=
  ⟨outcome_patchImage_of_legacy image codes loader legacy,
    fun _ _ _ _ opened ends small patched added =>
      isComplete_of_legacy legacy opened ends small patched added⟩

/-- A handler that loads the address of its codes and has the slot in front of that. -/
def loadingHandler : Handler where
  base := 0x80001800
  payload := wordBytes Handler.slotMark ++ List.replicate 0xF4 0 ++ wordBytes 0x3C608000 ++
    wordBytes 0x60632000
  minLength_le := by decide +kernel

theorem patchImage_legacy_loadingHandler :
    Image.ofBytes hookableFile = .ok hookableImage ∧
    (legacySettings (some 0x80003100)).placement.resolve loadingHandler.base loadingHandler.length
      mixedCodes.size = .legacy ∧
    (∀ area ∈ hookableImage.sections, area.stop ≤ UInt32.size) ∧
    roundUp hookableFile.length Image.sectionAlignment < UInt32.size ∧
    loadingHandler.LoadsPointer ∧ loadingHandler.SlotIsApart ∧
    ∃ out report area,
      (patchImage hookableImage mixedCodes loadingHandler bareLoader
        (legacySettings (some 0x80003100))).outcome = .ok (out, report) ∧
      report.area = some area ∧
      IsComplete hookableImage mixedCodes loadingHandler (legacySettings (some 0x80003100)) report
        area out ∧
      (patchImage hookableImage mixedCodes loadingHandler bareLoader
        { legacySettings (some 0x80003100) with
          protect := true, encrypt := true, seed := 7, allocation := some 0,
          initAddress := some 0 }).outcome = .ok (out, report) := by
  have legacy : (legacySettings (some 0x80003100)).placement.resolve loadingHandler.base
      loadingHandler.length mixedCodes.size = .legacy := rfl
  have ends : ∀ area ∈ hookableImage.sections, area.stop ≤ UInt32.size := by decide +kernel
  have small : roundUp hookableFile.length Image.sectionAlignment < UInt32.size := by
    decide +kernel
  have built : ((patchImage hookableImage mixedCodes loadingHandler bareLoader
      (legacySettings (some 0x80003100))).outcome.toOption.any fun result =>
        result.2.area.isSome) = true := by
    decide +kernel
  obtain ⟨⟨out, report⟩, patched, shown⟩ := Logged.exists_of_any built
  obtain ⟨area, added⟩ := Option.isSome_iff_exists.mp shown
  obtain ⟨same, complete⟩ :=
    @patchImage_legacy hookableImage mixedCodes loadingHandler bareLoader _ legacy
  exact ⟨ofBytes_hookableFile, legacy, ends, small, by decide +kernel, by decide +kernel, out,
    report, area, patched, added, complete _ _ _ _ ofBytes_hookableFile ends small patched added,
    (same bareLoader true true 7 (some 0) (some 0)).trans patched⟩

end CubePatch
