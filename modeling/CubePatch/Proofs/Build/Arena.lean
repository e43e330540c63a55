import CubePatch.Proofs.Build.Frame
import CubePatch.Proofs.Cipher
import CubePatch.Proofs.Payload.Bootstrap

/-!
What a loader finds in the section it was installed in.

Lengths, addresses and the key are filled into the loader at a time when neither the section nor the
branch to the handler is written. They are still right at the end: what is written later stands in
front of the section.

## Main result

`patchImage_arena`: the section consists of loader, handler and codes, the words of the loader tell
the lengths and addresses of these parts, and with the key that the loader holds the codes are read
as the list that was left.
-/
namespace CubePatch

/-! ### The parts of a payload -/

/-- The key the codes of a build are encrypted with; zero leaves them as they are. -/
def PatchSettings.key (settings : PatchSettings) : UInt32 :=
  if settings.encrypt then drawKey settings.seed else 0

/-- What is filled into the loader of a build. -/
def arenaValues (codes : CodeList) (handler : Handler) (settings : PatchSettings)
    (hook entryPoint init : UInt32) : BootstrapValues where
  initAddress := init
  allocation := settings.allocation.getD (defaultAllocation handler.length codes.size)
  handlerLength := UInt32.ofNat handler.length
  codesLength := UInt32.ofNat codes.size
  hookAddress := hook
  encrypted := settings.encrypt
  key := scrambleKey settings.key
  entryPoint := entryPoint

/-- The codes as they are kept under a key, and as they are taken out again. -/
def PatchSettings.cover (settings : PatchSettings) (key : UInt32) (bytes : Bytes) : Bytes :=
  if settings.encrypt then xorWords key bytes else bytes

theorem PatchSettings.length_cover (settings : PatchSettings) (key : UInt32) (bytes : Bytes) :
    (settings.cover key bytes).length = bytes.length := by
  unfold cover
  split
  · exact length_xorWords key bytes
  · rfl

theorem PatchSettings.cover_cover (settings : PatchSettings) (key : UInt32) (bytes : Bytes) :
    settings.cover key (settings.cover key bytes) = bytes := by
  unfold cover
  split
  · exact xorWords_xorWords key bytes
  · rfl

theorem outcome_arenaPayload (codes : CodeList) (handler : Handler) (loader : Bootstrap)
    (settings : PatchSettings) (hook entryPoint init : UInt32) :
    (arenaPayload codes handler loader settings hook entryPoint init).outcome =
      .ok ⟨init,
        loader.patch (arenaValues codes handler settings hook entryPoint init) ++
          handler.payload ++ settings.cover settings.key codes.bytes,
        (arenaValues codes handler settings hook entryPoint init).allocation⟩ := rfl

theorem arenaPayload_eq_ok {codes : CodeList} {handler : Handler} {loader : Bootstrap}
    {settings : PatchSettings} {hook entryPoint init : UInt32} {payload : Payload}
    (made : (arenaPayload codes handler loader settings hook entryPoint init).outcome =
      .ok payload) :
    payload.address = init ∧
      payload.allocation = (arenaValues codes handler settings hook entryPoint init).allocation ∧
      payload.bytes = loader.patch (arenaValues codes handler settings hook entryPoint init) ++
        handler.payload ++ settings.cover settings.key codes.bytes := by
  rw [outcome_arenaPayload] at made
  cases made
  exact ⟨rfl, rfl, rfl⟩

/-- The section of a build with a loader, as the loader finds it. -/
structure IsSelfConsistent (image : Image) (codes : CodeList) (handler : Handler)
    (loader : Bootstrap) (settings : PatchSettings) (report : BuildReport) (area : Section)
    (out : Image) : Prop where
  init_eq : report.initAddress = some area.loadAddress
  entry_eq : out.entryPoint = area.loadAddress
  parts : ∃ first second third, out.sectionBytes area = first ++ second ++ third ∧
    first.length = loader.length ∧ second.length = handler.length ∧
    third.length = report.codesLength ∧
    -- the handler carries out the word that stood at the hook when codes had been absorbed
    (∃ hook home moved, report.hookAddress = some hook ∧ home ∈ image.sections ∧
      home.Holds hook 4 ∧
      handler.withTrampoline hook
        (wordAt (image.absorbedBytes codes settings) (home.placeOf hook)) = .ok moved ∧
      second = moved.payload) ∧
    -- every word token of the loader holds its value
    (∀ offset, Token.IsWordIn loader.bytes offset .loaderSize →
      (wordAt first offset).toNat = first.length) ∧
    (∀ offset, Token.IsWordIn loader.bytes offset .handlerSize →
      (wordAt first offset).toNat = second.length) ∧
    (∀ offset, Token.IsWordIn loader.bytes offset .codeSize →
      (wordAt first offset).toNat = third.length) ∧
    (∀ offset, Token.IsWordIn loader.bytes offset .heap →
      wordAt first offset = report.allocation) ∧
    (∀ offset, Token.IsWordIn loader.bytes offset .hook →
      report.hookAddress = some (wordAt first offset)) ∧
    (∀ offset, Token.IsWordIn loader.bytes offset .crypt →
      wordAt first offset = if settings.encrypt then 1 else 0) ∧
    -- with the key of the loader, the codes are read as the list that was left
    (∃ offset, Token.IsWordIn loader.bytes offset .key) ∧
    ∀ offset, Token.IsWordIn loader.bytes offset .key → ∃ list,
      CodeList.ofBytes (settings.cover (unscrambleKey (wordAt first offset)) third) =
        .ok (list, []) ∧
      list.codes = (if settings.protect then [protectionStub] else []) ++
        image.leftCodes codes settings

/-- A build with a loader leaves a section that the loader can make sense of. -/
theorem patchImage_arena {file : Bytes} {image out : Image} {codes : CodeList} {handler : Handler}
    {loader : Bootstrap} {settings : PatchSettings} {report : BuildReport} {area : Section}
    (opened : Image.ofBytes file = .ok image)
    (ends : ∀ other ∈ image.sections, other.stop ≤ UInt32.size)
    (small : roundUp file.length Image.sectionAlignment < UInt32.size)
    (patched : (patchImage image codes handler loader settings).outcome = .ok (out, report))
    (placed : report.placement = .arena) (added : report.area = some area) :
    IsSelfConsistent image codes handler loader settings report area out := by
  have sound := Image.wellFormed_of_ofBytes opened
  obtain ⟨init, middle, left, init_iff, absorbed, length_eq, finish⟩ :=
    patchImage_eq_ok sound patched
  obtain ⟨-, -, no_area⟩ | ⟨-, stages, init_eq, allocation_eq, hook_eq, area_eq⟩ := finish
  · rw [no_area] at added
    cases added
  rw [area_eq] at added
  cases added
  -- a build with a loader has an address for it
  obtain ⟨address, rfl⟩ := Option.isSome_iff_exists.mp (init_iff.mpr placed)
  have start := absorbed.wellFormed sound
  have padded : (padTo Image.sectionAlignment middle.bytes).length < UInt32.size := by
    rw [length_padTo _ _ (by decide), absorbed.length_eq, Image.bytes_ofBytes opened]
    exact small
  obtain ⟨home, member, held, stands, shown⟩ :=
    stages.hook_in_start start padded (absorbed.sections_eq ▸ ends)
  obtain ⟨-, load, adds⟩ := stages.adds start
  obtain ⟨at_address, reserved, joined⟩ := arenaPayload_eq_ok stages.made
  have announced := stages.isAnnounced opened small absorbed init_iff init_eq hook_eq
  have init_load : report.initAddress = some stages.area.loadAddress := by
    rw [init_eq, load, at_address]
  refine ⟨init_load, ?_, ?_⟩
  · rw [announced.entry_eq, init_load]
    rfl
  · have moved_length := (Handler.withTrampoline_eq_ok stages.trampoline).2
    -- each part is shorter than the section, so its length is not reduced when it is filled in
    have first_length := loader.length_patch
      (arenaValues left stages.moved settings stages.hook image.entryPoint address)
    have third_length := settings.length_cover settings.key left.bytes
    have whole : loader.length + stages.moved.length + left.size < UInt32.size := by
      have size := stages.area.size.toNat_lt_size
      rw [adds.size_eq, joined, List.length_append, List.length_append, first_length,
        third_length] at size
      exact size
    refine ⟨_, _, _, shown.trans joined, first_length, moved_length, ?_, ?_, ?_, ?_, ?_, ?_, ?_, ?_,
      ⟨_, loader.isWordIn_keyOffset⟩, ?_⟩
    · rw [third_length, length_eq]
      rfl
    · refine ⟨stages.hook, home, stages.moved, hook_eq, absorbed.sections_eq ▸ member, held, ?_,
        rfl⟩
      rw [← absorbed.bytes, stands]
      exact stages.trampoline
    · intro offset token
      rw [loader.wordAt_patch _ token rfl, first_length]
      exact UInt32.toNat_ofNat_of_lt' (by omega)
    · intro offset token
      rw [loader.wordAt_patch _ token rfl]
      exact UInt32.toNat_ofNat_of_lt' (by omega)
    · intro offset token
      rw [loader.wordAt_patch _ token rfl, third_length]
      exact UInt32.toNat_ofNat_of_lt' (by omega)
    · intro offset token
      rw [loader.wordAt_patch _ token rfl, allocation_eq, reserved]
    · intro offset token
      rw [loader.wordAt_patch _ token rfl, hook_eq]
      rfl
    · intro offset token
      rw [loader.wordAt_patch _ token rfl]
      rfl
    · intro offset token
      -- the loader unscrambles what it holds and gets the key the codes were covered with
      have key : wordAt (loader.patch (arenaValues left stages.moved settings stages.hook
          image.entryPoint address)) offset = scrambleKey settings.key :=
        loader.wordAt_patch _ token rfl
      refine ⟨left, ?_, ?_⟩
      · rw [key, unscrambleKey_scrambleKey, settings.cover_cover, ← List.append_nil left.bytes]
        exact CodeList.ofBytes_bytes left []
      · rw [absorbed.codes_eq, PatchSettings.inserted, placed]
        simp

theorem patchImage_arena_mixedCodes :
    Image.ofBytes hookableFile = .ok hookableImage ∧
    (∀ other ∈ hookableImage.sections, other.stop ≤ UInt32.size) ∧
    roundUp hookableFile.length Image.sectionAlignment < UInt32.size ∧
    ∃ out report area,
      (patchImage hookableImage mixedCodes bareHandler bareLoader fullSettings).outcome =
        .ok (out, report) ∧
      report.placement = .arena ∧ report.area = some area ∧
      IsSelfConsistent hookableImage mixedCodes bareHandler bareLoader fullSettings report area
        out := by
  have ends : ∀ other ∈ hookableImage.sections, other.stop ≤ UInt32.size := by decide +kernel
  have small : roundUp hookableFile.length Image.sectionAlignment < UInt32.size := by
    decide +kernel
  obtain ⟨out, report, area, patched, placed, added⟩ := patchImage_mixedCodes
  exact ⟨ofBytes_hookableFile, ends, small, out, report, area, patched, placed, added,
    patchImage_arena ofBytes_hookableFile ends small patched placed added⟩

end CubePatch
