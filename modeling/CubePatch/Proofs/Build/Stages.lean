import CubePatch.Build.Patch
import CubePatch.Proofs.Absorption.Run
import CubePatch.Proofs.Code.List
import CubePatch.Proofs.Code.Revision
import CubePatch.Proofs.Image.Append
import CubePatch.Proofs.Image.Gap
import CubePatch.Proofs.Payload.Hook

/-!
The stages of a build that succeeds.

A build that succeeds went through its stages one after the other, and each of them succeeded. What
a stage leaves behind is said here in terms of the image and the codes the build began with, so that
nothing further on has to look into a stage again.
-/
namespace CubePatch

namespace Logged

theorem bind_eq_ok {first : Logged ε α} {next : α → Logged ε β} {result : β}
    (run : (first >>= next).outcome = .ok result) :
    ∃ value, first.outcome = .ok value ∧ (next value).outcome = .ok result := by
  rw [outcome_bind] at run
  cases done : first.outcome with
  | error fault => rw [done] at run; cases run
  | ok value => rw [done] at run; exact ⟨value, rfl, run⟩

/-- Two steps fail where the first one does, or where the second does after the first. -/
theorem bind_eq_error {first : Logged ε α} {next : α → Logged ε β} {fault : ε}
    (run : (first >>= next).outcome = .error fault) :
    first.outcome = .error fault ∨
      ∃ value, first.outcome = .ok value ∧ (next value).outcome = .error fault := by
  rw [outcome_bind] at run
  cases done : first.outcome with
  | error reason => rw [done] at run; cases run; exact Or.inl rfl
  | ok value => rw [done] at run; exact Or.inr ⟨value, rfl, run⟩

theorem mapError_eq_ok {convert : ε → δ} {outcome : Except ε α} {value : α}
    (run : outcome.mapError convert = .ok value) : outcome = .ok value := by
  cases outcome <;> cases run
  rfl

theorem mapError_eq_error {convert : ε → δ} {outcome : Except ε α} {fault : δ}
    (run : outcome.mapError convert = .error fault) :
    ∃ reason, outcome = .error reason ∧ fault = convert reason := by
  cases outcome <;> cases run
  exact ⟨_, rfl, rfl⟩

theorem ofEdit_eq_ok {result : EStateM.Result ε σ α} {value : α} {state : σ}
    (run : (ofEdit result).outcome = .ok (value, state)) : result = .ok value state := by
  cases result <;> cases run
  rfl

theorem ofEdit_eq_error {result : EStateM.Result ε σ α} {fault : ε}
    (run : (ofEdit result).outcome = .error fault) : ∃ state, result = .error fault state := by
  cases result <;> cases run
  exact ⟨_, rfl⟩

@[simp] theorem outcome_tell_bind (event : Event) (next : Unit → Logged ε α) :
    (tell event >>= next).outcome = (next ()).outcome := rfl

@[simp] theorem outcome_tellAll_bind (events : List Event) (next : Unit → Logged ε α) :
    (tellAll events >>= next).outcome = (next ()).outcome := rfl

/-- An outcome that passes a check is a value that does. -/
theorem exists_of_any {outcome : Except ε α} {check : α → Bool}
    (passed : outcome.toOption.any check = true) :
    ∃ value, outcome = .ok value ∧ check value = true := by
  cases outcome with
  | error fault => cases passed
  | ok value => exact ⟨value, rfl, passed⟩

end Logged

/-! ### Preparing and absorbing -/

/-- The codes a build puts in front of the given ones. -/
def PatchSettings.inserted (settings : PatchSettings) (placement : Placement) : List Code :=
  if placement = .arena ∧ settings.protect = true then [protectionStub] else []

/-- The file with the writes of absorbed codes made in it, if codes are to be absorbed. -/
def Image.absorbedBytes (image : Image) (codes : CodeList) (settings : PatchSettings) : Bytes :=
  if settings.optimize then
    overwriteAll image.bytes (image.placed (codes.absorb image).writes)
  else image.bytes

/-- The given codes that are left to be run. -/
def Image.leftCodes (image : Image) (codes : CodeList) (settings : PatchSettings) : List Code :=
  if settings.optimize then (codes.absorb image).remaining.codes else codes.codes

theorem Image.length_absorbedBytes (image : Image) (codes : CodeList) (settings : PatchSettings) :
    (image.absorbedBytes codes settings).length = image.bytes.length := by
  unfold absorbedBytes
  split
  · exact length_overwriteAll _ _
  · rfl

/-- The codes with the protection code in front of them, if it is asked for. -/
def CodeList.guarded (codes : CodeList) (settings : PatchSettings) : CodeList :=
  if settings.protect then .ofCodes (protectionStub :: codes.codes) else codes

/-- With a loader, all that can fail before codes are absorbed is to find an address for it. -/
theorem prepare_arena (image : Image) (codes : CodeList) (handler : Handler) (loader : Bootstrap)
    (settings : PatchSettings) :
    (prepare image codes handler loader settings .arena).outcome =
      ((image.chooseInit settings.initAddress (UInt32.ofNat
        (loader.length + handler.length + (codes.guarded settings).size))).outcome.mapError
          .payload).map fun address => (codes.guarded settings, some address) := by
  have finish (list : CodeList) (choice : Logged PayloadError UInt32) :
      (do let address ← choice.mapError .payload
          return (list, some address) : Logged BuildError (CodeList × Option UInt32)).outcome =
        (choice.outcome.mapError .payload).map fun address => (list, some address) := by
    rw [Logged.outcome_bind, Logged.outcome_mapError]
    rfl
  simp only [prepare, CodeList.guarded]
  by_cases protect : settings.protect = true
  · rw [if_pos protect, if_pos protect, Logged.outcome_bind, Logged.outcome_mapError,
      readBefore_protectionCode]
    exact finish _ _
  · rw [if_neg protect, if_neg protect, Logged.outcome_bind]
    exact finish _ _

theorem prepare_arena_eq_ok {image : Image} {codes prepared : CodeList} {handler : Handler}
    {loader : Bootstrap} {settings : PatchSettings} {init : Option UInt32}
    (run : (prepare image codes handler loader settings .arena).outcome = .ok (prepared, init)) :
    ∃ address, init = some address ∧ prepared = codes.guarded settings ∧
      (image.chooseInit settings.initAddress (UInt32.ofNat
        (loader.length + handler.length + (codes.guarded settings).size))).outcome =
          .ok address := by
  rw [prepare_arena] at run
  cases chosen : (image.chooseInit settings.initAddress (UInt32.ofNat
      (loader.length + handler.length + (codes.guarded settings).size))).outcome with
  | error fault =>
    rw [chosen] at run
    cases run
  | ok address =>
    rw [chosen] at run
    cases run
    exact ⟨address, rfl, rfl, rfl⟩

theorem prepare_eq_ok {image : Image} {codes prepared : CodeList} {handler : Handler}
    {loader : Bootstrap} {settings : PatchSettings} {placement : Placement} {init : Option UInt32}
    (run : (prepare image codes handler loader settings placement).outcome =
      .ok (prepared, init)) :
    prepared.codes = settings.inserted placement ++ codes.codes ∧
      (init.isSome = true ↔ placement = .arena) := by
  cases placement with
  | legacy =>
    cases run
    simp [PatchSettings.inserted]
  | arena =>
    obtain ⟨address, rfl, rfl, -⟩ := prepare_arena_eq_ok run
    unfold PatchSettings.inserted CodeList.guarded
    by_cases protect : settings.protect = true <;> simp [protect, CodeList.ofCodes]

/-- The protection code is passed over. -/
theorem absorbCodes_inserted (settings : PatchSettings) (placement : Placement)
    (codes : List Code) (image : Image) :
    absorbCodes 0 (settings.inserted placement ++ codes) image =
      { absorbCodes 0 codes image with
        fates := (settings.inserted placement).map (·, .kept) ++
          (absorbCodes 0 codes image).fates } := by
  have kept : absorbCode 0 protectionStub image = .ok .kept image := rfl
  have depth : depthAfter 0 protectionStub.kind = 0 := rfl
  unfold PatchSettings.inserted
  split
  · rw [List.singleton_append, absorbCodes, kept]
    simp only [depth]
    rfl
  · rfl

/-- Absorbing fails where a code cannot be absorbed, and gives what is left otherwise. -/
theorem outcome_absorbIfAsked (image : Image) (codes : CodeList) (settings : PatchSettings) :
    (absorbIfAsked image codes settings).outcome =
      if settings.optimize then
        match (codes.absorb image).fault with
        | some fault => .error (.absorption fault)
        | none => .ok ((codes.absorb image).image, (codes.absorb image).remaining,
            some (codes.absorb image).counts)
      else .ok (image, codes, none) := by
  unfold absorbIfAsked
  split
  · rw [Logged.outcome_tellAll_bind]
    cases (codes.absorb image).fault <;> rfl
  · rfl

/-- The image and the codes after absorbing: the sections are left alone, the writes of absorbed
codes are made, and the other codes stand behind the ones that were put in front. -/
structure IsAbsorbed (image : Image) (codes : CodeList) (settings : PatchSettings)
    (placement : Placement) (middle : Image) (left : CodeList) : Prop where
  text : middle.text = image.text
  data : middle.data = image.data
  bytes : middle.bytes = image.absorbedBytes codes settings
  codes_eq : left.codes = settings.inserted placement ++ image.leftCodes codes settings

namespace IsAbsorbed

variable {image middle : Image} {codes left : CodeList} {settings : PatchSettings}
  {placement : Placement} (absorbed : IsAbsorbed image codes settings placement middle left)

include absorbed

theorem sections_eq : middle.sections = image.sections := by
  rw [Image.sections, Image.sections, absorbed.text, absorbed.data]

theorem sectionsOf_eq : middle.sectionsOf = image.sectionsOf := by
  funext kind
  cases kind
  · exact absorbed.text
  · exact absorbed.data

theorem freeKind_eq : middle.freeKind = image.freeKind := by
  rw [Image.freeKind, Image.freeKind, absorbed.text]

theorem length_eq : middle.bytes.length = image.bytes.length := by
  rw [absorbed.bytes, Image.length_absorbedBytes]

theorem wellFormed (sound : image.WellFormed) : middle.WellFormed :=
  sound.of_same_layout absorbed.sections_eq absorbed.length_eq

end IsAbsorbed

theorem absorbIfAsked_eq_ok {image middle : Image} {codes prepared left : CodeList}
    {settings : PatchSettings} {placement : Placement} {counts : Option AbsorptionCounts}
    (sound : image.WellFormed)
    (prepared_eq : prepared.codes = settings.inserted placement ++ codes.codes)
    (run : (absorbIfAsked image prepared settings).outcome = .ok (middle, left, counts)) :
    IsAbsorbed image codes settings placement middle left := by
  rw [outcome_absorbIfAsked] at run
  split at run
  next asked =>
    -- the codes in front are passed over, so the pass is the one over the given codes
    have whole : prepared.absorb image =
        { codes.absorb image with
          fates :=
            (settings.inserted placement).map (·, .kept) ++ (codes.absorb image).fates } := by
      rw [CodeList.absorb, prepared_eq, absorbCodes_inserted]
      rfl
    have unmoved : ∀ entry ∈ (settings.inserted placement).map (·, Fate.kept),
        entry.2 ≠ .applied := by
      intro entry member
      obtain ⟨code, -, rfl⟩ := List.mem_map.mp member
      exact Fate.noConfusion
    have follows : (codes.absorb image).Follows image 0 codes.codes :=
      absorbCodes_follows sound 0 codes.codes
    split at run
    · cases run
    · cases run
      rw [whole]
      refine ⟨follows.text, follows.data, ?_, ?_⟩
      · rw [Image.absorbedBytes, if_pos asked]
        exact follows.bytes
      rw [Image.leftCodes, if_pos asked]
      simp only [Absorption.remaining, CodeList.ofCodes, List.filter_append, List.map_append]
      rw [List.filter_eq_self.mpr fun entry member => decide_eq_true (unmoved entry member),
        List.map_map]
      congr 1
      exact List.map_id _
  next unasked =>
    cases run
    refine ⟨rfl, rfl, ?_, ?_⟩
    · rw [Image.absorbedBytes, if_neg unasked]
    · rw [Image.leftCodes, if_neg unasked]
      exact prepared_eq

/-- Absorbing takes codes away and puts none in. -/
theorem absorbIfAsked_sublist {image middle : Image} {codes left : CodeList}
    {settings : PatchSettings} {counts : Option AbsorptionCounts}
    (run : (absorbIfAsked image codes settings).outcome = .ok (middle, left, counts)) :
    left.codes.Sublist codes.codes := by
  rw [outcome_absorbIfAsked] at run
  split at run
  · split at run
    · cases run
    · cases run
      have kept : (codes.absorb image).remaining.codes.Sublist
          ((codes.absorb image).fates.map (·.1)) :=
        List.Sublist.map _ List.filter_sublist
      exact kept.trans (CodeList.fates_begin_codes 0 codes.codes image).sublist
  · cases run
    exact List.Sublist.refl _

/-! ### Choosing addresses -/

theorem checkAddress_eq_error {role : AddressRole} {address : UInt32} {fault : PayloadError}
    (failed : checkAddress role address = .error fault) :
    fault = .addressOutOfRange role address := by
  unfold checkAddress at failed
  split at failed <;> cases failed
  rfl

theorem checkAddress_eq_ok {role : AddressRole} {address checked : UInt32}
    (passed : checkAddress role address = .ok checked) : checked = address := by
  unfold checkAddress at passed
  split at passed <;> cases passed
  rfl

theorem inMainMemory_of_checkAddress {role : AddressRole} {address checked : UInt32}
    (passed : checkAddress role address = .ok checked) :
    memoryStart ≤ checked ∧ checked < memoryStop := by
  unfold checkAddress at passed
  split at passed
  next inside =>
    cases passed
    exact inside
  · cases passed

/-- The address of the loader is one of main memory, and it was given, or found where its bytes meet no
section. -/
theorem chooseInit_eq_ok {image : Image} {given : Option UInt32} {needed address : UInt32}
    (chosen : (image.chooseInit given needed).outcome = .ok address) :
    (memoryStart ≤ address ∧ address < memoryStop) ∧
      (given = some address ∨
        given = none ∧ image.gapStart ≤ address ∧
          address.toNat + max needed.toNat 1 ≤ addressTop ∧
          ∀ other ∈ image.sections, ¬ other.Meets address.toNat needed.toNat) := by
  unfold Image.chooseInit at chosen
  split at chosen
  next asked =>
    simp only [Logged.outcome_ofExcept, bind, Except.bind] at chosen
    split at chosen
    · cases chosen
    next checking =>
      have inside := inMainMemory_of_checkAddress checking
      obtain rfl := checkAddress_eq_ok checking
      split at chosen <;> cases chosen
      exact ⟨inside, Or.inl rfl⟩
  next =>
    obtain ⟨found, searched, chosen⟩ := Logged.bind_eq_ok chosen
    rw [Logged.outcome_tell_bind, Logged.outcome_ofExcept] at chosen
    have inside := inMainMemory_of_checkAddress chosen
    obtain rfl := checkAddress_eq_ok chosen
    exact ⟨inside, Or.inr ⟨rfl, Image.findGap_eq_ok (Logged.mapError_eq_ok searched)⟩⟩

/-- A hook that is chosen was given and its word accepted, or it is a return that was found. -/
theorem chooseHook_cases {image after : Image} {settings : PatchSettings} {hook replaced : UInt32}
    (chosen : (chooseHook image settings).outcome = .ok (hook, replaced, after)) :
    settings.hookAddress = some hook ∧ Image.verifyHook hook image = .ok replaced after ∨
      settings.hookAddress = none ∧
        (∃ site, image.locateHook settings.hookKind = .ok site ∧ site.address = hook) ∧
        replaced = returnWord ∧ after = image := by
  unfold chooseHook at chosen
  split at chosen
  next given given_eq =>
    obtain ⟨address, checked, chosen⟩ := Logged.bind_eq_ok chosen
    obtain ⟨⟨word, looked⟩, looking, chosen⟩ := Logged.bind_eq_ok chosen
    cases chosen
    obtain rfl := checkAddress_eq_ok (Logged.mapError_eq_ok checked)
    exact Or.inl ⟨given_eq, Logged.ofEdit_eq_ok (Logged.mapError_eq_ok looking)⟩
  next searched =>
    obtain ⟨site, looking, chosen⟩ := Logged.bind_eq_ok chosen
    rw [Logged.outcome_tell_bind] at chosen
    cases chosen
    exact Or.inr ⟨searched, ⟨site, Logged.mapError_eq_ok looking, rfl⟩, rfl, rfl⟩

/-! ### Installing -/

/-- Loader, handler and codes if there is an address for the loader, and otherwise handler and
codes. -/
def payloadFor (codes : CodeList) (handler : Handler) (loader : Bootstrap)
    (settings : PatchSettings) (hook entryPoint : UInt32) :
    Option UInt32 → Logged BuildError Payload
  | some address => arenaPayload codes handler loader settings hook entryPoint address
  | none => legacyPayload codes handler settings

/-- Whether there was a pointer before is told, and has no part in the payload. -/
theorem outcome_legacyPayload (codes : CodeList) (handler : Handler) (settings : PatchSettings) :
    (legacyPayload codes handler settings).outcome =
      .ok ⟨handler.base,
        (handler.setCodeListPointer (handler.addressOf handler.length)).payload ++ codes.bytes,
        legacyAllocation handler.base handler.length⟩ := by
  unfold legacyPayload
  cases handler.codeListPointer? <;> rfl

theorem legacyPayload_eq_ok {codes : CodeList} {handler : Handler} {settings : PatchSettings}
    {payload : Payload} (made : (legacyPayload codes handler settings).outcome = .ok payload) :
    payload.address = handler.base ∧
      payload.allocation = legacyAllocation handler.base handler.length ∧
      payload.bytes =
        (handler.setCodeListPointer (handler.addressOf handler.length)).payload ++ codes.bytes := by
  rw [outcome_legacyPayload] at made
  cases made
  exact ⟨rfl, rfl, rfl⟩

/-- The image with another entry point, if there is one. -/
def Image.startedAt (image : Image) : Option UInt32 → Image
  | some address => image.setEntryPoint address
  | none => image

@[simp] theorem Image.text_startedAt (image : Image) (init : Option UInt32) :
    (image.startedAt init).text = image.text := by
  cases init
  · rfl
  · exact text_overwrite _ _ _

@[simp] theorem Image.data_startedAt (image : Image) (init : Option UInt32) :
    (image.startedAt init).data = image.data := by
  cases init
  · rfl
  · exact data_overwrite _ _ _

theorem outcome_installTrampoline (handler : Handler) (hook replaced : UInt32) :
    (installTrampoline handler hook replaced).outcome =
      (handler.withTrampoline hook replaced).mapError .payload := by
  unfold installTrampoline
  rw [Logged.outcome_bind, Logged.outcome_ofExcept]
  cases handler.withTrampoline hook replaced <;> rfl

theorem installTrampoline_eq_ok {handler moved : Handler} {hook replaced : UInt32}
    (run : (installTrampoline handler hook replaced).outcome = .ok moved) :
    handler.withTrampoline hook replaced = .ok moved := by
  rw [outcome_installTrampoline] at run
  exact Logged.mapError_eq_ok run

/-- The stages by which codes that are left get from an image into another one. -/
structure Installation (start : Image) (codes : CodeList) (handler : Handler) (loader : Bootstrap)
    (settings : PatchSettings) (entryPoint : UInt32) (init : Option UInt32) (out : Image) where
  hook : UInt32
  replaced : UInt32
  looked : Image
  moved : Handler
  payload : Payload
  area : Section
  installed : Image
  chosen : (chooseHook start settings).outcome = .ok (hook, replaced, looked)
  trampoline : handler.withTrampoline hook replaced = .ok moved
  made : (payloadFor codes moved loader settings hook entryPoint init).outcome = .ok payload
  added : Image.install payload.bytes payload.address looked = .ok area installed
  hooked : Image.insertBranch moved.entry hook false (installed.startedAt init) = .ok () out

/-- A build that succeeds goes through its stages in order. -/
theorem patchImage_stages {image out : Image} {codes : CodeList} {handler : Handler}
    {loader : Bootstrap} {settings : PatchSettings} {report : BuildReport}
    (patched : (patchImage image codes handler loader settings).outcome = .ok (out, report)) :
    ∃ prepared init middle left counts,
      report.placement = settings.placement.resolve handler.base handler.length codes.size ∧
      (prepare image codes handler loader settings report.placement).outcome =
        .ok (prepared, init) ∧
      (absorbIfAsked image prepared settings).outcome = .ok (middle, left, counts) ∧
      report.codesLength = left.size ∧
      (left.codes = [] ∧ out = middle ∧ report.area = none ∨
        left.codes ≠ [] ∧ ∃ stages : Installation middle left handler loader settings
            image.entryPoint init out,
          report.initAddress = init ∧ report.allocation = stages.payload.allocation ∧
          report.hookAddress = some stages.hook ∧ report.area = some stages.area) := by
  obtain ⟨⟨prepared, init⟩, preparing, patched⟩ := Logged.bind_eq_ok patched
  obtain ⟨-, -, patched⟩ := Logged.bind_eq_ok patched
  obtain ⟨⟨middle, left, counts⟩, absorbing, patched⟩ := Logged.bind_eq_ok patched
  refine ⟨prepared, init, middle, left, counts, ?_⟩
  dsimp only at patched
  by_cases none_left : left.codes = []
  · have empty : left.isEmpty = true := by rw [CodeList.isEmpty, none_left]; rfl
    rw [if_pos empty] at patched
    cases patched
    exact ⟨rfl, preparing, absorbing, rfl, Or.inl ⟨none_left, rfl, rfl⟩⟩
  · have more : ¬ left.isEmpty = true := fun empty => none_left (List.isEmpty_iff.mp empty)
    rw [if_neg more] at patched
    obtain ⟨-, -, patched⟩ := Logged.bind_eq_ok patched
    obtain ⟨⟨hook, replaced, looked⟩, chosen, patched⟩ := Logged.bind_eq_ok patched
    obtain ⟨moved, moving, patched⟩ := Logged.bind_eq_ok patched
    -- with and without a loader, the payload is installed in the same way
    cases init
    all_goals
      obtain ⟨payload, made, patched⟩ := Logged.bind_eq_ok patched
      obtain ⟨⟨area, installed⟩, adding, patched⟩ := Logged.bind_eq_ok patched
      obtain ⟨⟨⟨⟩, final⟩, hooking, patched⟩ := Logged.bind_eq_ok patched
      cases patched
      refine ⟨rfl, preparing, absorbing, rfl, Or.inr ⟨none_left, ?_⟩⟩
      exact ⟨⟨hook, replaced, looked, moved, payload, area, installed, chosen,
        installTrampoline_eq_ok moving, made,
        Logged.ofEdit_eq_ok (Logged.mapError_eq_ok adding),
        Logged.ofEdit_eq_ok (Logged.mapError_eq_ok hooking)⟩, rfl, rfl, rfl, rfl⟩

/-- A build that succeeds ends after codes were absorbed if no code is left, and otherwise installs
what is left. -/
theorem patchImage_eq_ok {image out : Image} {codes : CodeList} {handler : Handler}
    {loader : Bootstrap} {settings : PatchSettings} {report : BuildReport}
    (sound : image.WellFormed)
    (patched : (patchImage image codes handler loader settings).outcome = .ok (out, report)) :
    ∃ init middle left, (init.isSome = true ↔ report.placement = .arena) ∧
      IsAbsorbed image codes settings report.placement middle left ∧
      report.codesLength = left.size ∧
      (left.codes = [] ∧ out = middle ∧ report.area = none ∨
        left.codes ≠ [] ∧ ∃ stages : Installation middle left handler loader settings
            image.entryPoint init out,
          report.initAddress = init ∧ report.allocation = stages.payload.allocation ∧
          report.hookAddress = some stages.hook ∧ report.area = some stages.area) := by
  obtain ⟨prepared, init, middle, left, counts, -, preparing, absorbing, length_eq, finish⟩ :=
    patchImage_stages patched
  obtain ⟨prepared_eq, init_iff⟩ := prepare_eq_ok preparing
  exact ⟨init, middle, left, init_iff, absorbIfAsked_eq_ok sound prepared_eq absorbing, length_eq,
    finish⟩

end CubePatch
