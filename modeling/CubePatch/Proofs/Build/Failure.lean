import CubePatch.Proofs.Build.Hook
import CubePatch.Proofs.Image.Gap

/-!
How a build fails.

What a later stage needs is checked by an earlier one, in other terms: the hook is accepted if its
word can be moved, and found where a branch can be written; the gap for the loader is looked for with
the codes as they are before some of them are absorbed. So a build fails early, if it fails.

## Main result

`patchImage_fails_early`: no build fails at the branch at the hook, at moving the replaced word, or
at reading the codes again; absorbing only fails for serial writes, and a section is only in the way
without a loader or with an address that was given for it.
-/
namespace CubePatch

/-- What a build can fail for: each stage has its faults, and the stages behind the last of these
have none. -/
inductive CanFail (settings : PatchSettings) (placement : Placement) (length : Nat) :
    BuildError → Prop where
  | addressOutOfRange (role : AddressRole) (address : UInt32) :
    CanFail settings placement length (.payload (.addressOutOfRange role address))
  | initAddressTaken (address : UInt32) (given : settings.initAddress = some address) :
    CanFail settings placement length (.payload (.initAddressTaken address))
  | noFreeGap (start needed : UInt32) (searched : settings.initAddress = none) :
    CanFail settings placement length (.payload (.image (.noFreeGap start needed)))
  | badSerial (fault : SerialFault) (asked : settings.optimize = true) :
    CanFail settings placement length (.absorption (.serial fault))
  | noFreeSections : CanFail settings placement length (.payload .noFreeSections)
  | hook (fault : HookError) : CanFail settings placement length (.hook fault)
  | missingVariableSlot : CanFail settings placement length (.payload .missingVariableSlot)
  /-- There is no address behind the word that was moved. -/
  | noWayBack : CanFail settings placement length (.payload (.overflow .sum))
  /-- There is room in a gap that was found, unless its length is not a word. -/
  | sectionOverlap (address : UInt32) (size : Nat)
    (unsearched : placement = .legacy ∨ settings.initAddress.isSome = true ∨
      UInt32.size ≤ length) :
    CanFail settings placement length (.payload (.image (.sectionOverlap address size)))

/-! ### Before something is installed -/

section Stages

variable {image : Image} {settings : PatchSettings} {length : Nat} {fault : BuildError}

theorem chooseInit_canFail {needed : UInt32} {reason : PayloadError}
    (failed : (image.chooseInit settings.initAddress needed).outcome = .error reason) :
    CanFail settings .arena length (.payload reason) := by
  unfold Image.chooseInit at failed
  cases given : settings.initAddress with
  | some address =>
    rw [given] at failed
    simp only [Logged.outcome_ofExcept, bind, Except.bind] at failed
    split at failed
    next checked =>
      cases failed
      rw [checkAddress_eq_error checked]
      exact .addressOutOfRange .init address
    next same checked =>
      obtain rfl := checkAddress_eq_ok checked
      split at failed <;> cases failed
      exact .initAddressTaken _ given
  | none =>
    rw [given] at failed
    obtain missing | ⟨address, -, failed⟩ := Logged.bind_eq_error failed
    · obtain ⟨gap, searched, rfl⟩ := Logged.mapError_eq_error missing
      unfold Image.findGap at searched
      split at searched <;> cases searched
      exact .noFreeGap _ _ given
    · rw [Logged.outcome_tell_bind] at failed
      rw [checkAddress_eq_error failed]
      exact .addressOutOfRange .init address

theorem prepare_canFail {codes : CodeList} {handler : Handler} {loader : Bootstrap}
    {placement : Placement}
    (failed : (prepare image codes handler loader settings placement).outcome = .error fault) :
    CanFail settings placement length fault := by
  cases placement with
  | legacy => cases failed
  | arena =>
    rw [prepare_arena] at failed
    cases chosen : (image.chooseInit settings.initAddress (UInt32.ofNat
        (loader.length + handler.length + (codes.guarded settings).size))).outcome with
    | error reason =>
      rw [chosen] at failed
      cases failed
      exact chooseInit_canFail chosen
    | ok address =>
      rw [chosen] at failed
      cases failed

/-- An address that was searched for has room for loader, handler and codes as they are before some
of these are absorbed. -/
theorem prepare_free {codes prepared : CodeList} {handler : Handler} {loader : Bootstrap}
    {address : UInt32}
    (run : (prepare image codes handler loader settings .arena).outcome =
      .ok (prepared, some address))
    (searched : settings.initAddress = none)
    (small : loader.length + handler.length + (codes.guarded settings).size < UInt32.size) :
    prepared = codes.guarded settings ∧ ∀ other ∈ image.sections,
      ¬ other.Meets address.toNat
        (loader.length + handler.length + (codes.guarded settings).size) := by
  obtain ⟨gap, same, rfl, chosen⟩ := prepare_arena_eq_ok run
  cases same
  rw [searched] at chosen
  obtain ⟨-, given | ⟨-, -, -, free⟩⟩ := chooseInit_eq_ok chosen
  · cases given
  · rw [UInt32.toNat_ofNat_of_lt' small] at free
    exact ⟨rfl, free⟩

theorem absorbIfAsked_canFail {codes : CodeList} {placement : Placement} (sound : image.WellFormed)
    (failed : (absorbIfAsked image codes settings).outcome = .error fault) :
    CanFail settings placement length fault := by
  rw [outcome_absorbIfAsked] at failed
  split at failed
  next asked =>
    split at failed
    next reason stopped =>
      cases failed
      have follows : (codes.absorb image).Follows image 0 codes.codes :=
        absorbCodes_follows sound 0 codes.codes
      obtain ⟨code, -, -, -, rfl⟩ := follows.fault_of reason stopped
      exact .badSerial _ asked
    · cases failed
  · cases failed

theorem chooseHook_canFail {placement : Placement}
    (failed : (chooseHook image settings).outcome = .error fault) :
    CanFail settings placement length fault := by
  unfold chooseHook at failed
  split at failed
  next address given =>
    obtain checking | ⟨_, -, failed⟩ := Logged.bind_eq_error failed
    · rw [Logged.outcome_ofExcept] at checking
      obtain ⟨reason, refused, rfl⟩ := Logged.mapError_eq_error checking
      rw [checkAddress_eq_error refused]
      exact .addressOutOfRange .hook address
    · obtain looking | ⟨_, -, failed⟩ := Logged.bind_eq_error failed
      · obtain ⟨reason, -, rfl⟩ := Logged.mapError_eq_error looking
        exact .hook reason
      · cases failed
  · obtain looking | ⟨_, -, failed⟩ := Logged.bind_eq_error failed
    · obtain ⟨reason, -, rfl⟩ := Logged.mapError_eq_error looking
      exact .hook reason
    · rw [Logged.outcome_tell_bind] at failed
      cases failed

/-- The word at a hook that was chosen can be moved. -/
theorem chooseHook_isMovable {after : Image} {hook replaced : UInt32}
    (chosen : (chooseHook image settings).outcome = .ok (hook, replaced, after)) :
    Handler.IsMovable replaced := by
  obtain ⟨-, verified⟩ | ⟨-, -, rfl, -⟩ := chooseHook_cases chosen
  · exact ((Image.verifyHook_eq_ok_iff _ _ _).mp ⟨_, verified⟩).2
  · exact (Handler.isMovable_iff _).mpr (Or.inl rfl)

end Stages

/-! ### Installing -/

theorem length_guarded (codes : CodeList) (settings : PatchSettings) :
    (codes.guarded settings).size =
      codes.size + if settings.protect then protectionCode.length else 0 := by
  unfold CodeList.guarded
  by_cases protect : settings.protect = true
  · rw [if_pos protect, if_pos protect, CodeList.size_eq, CodeList.size_eq, CodeList.body,
      CodeList.body, CodeList.ofCodes, List.flatMap_cons, List.length_append, bytes_protectionStub]
    omega
  · rw [if_neg protect, if_neg protect, Nat.add_zero]

theorem installTrampoline_canFail {settings : PatchSettings} {placement : Placement}
    {length : Nat} {handler : Handler} {hook replaced : UInt32} {fault : BuildError}
    (movable : Handler.IsMovable replaced)
    (failed : (installTrampoline handler hook replaced).outcome = .error fault) :
    CanFail settings placement length fault := by
  rw [outcome_installTrampoline] at failed
  obtain ⟨reason, refused, rfl⟩ := Logged.mapError_eq_error failed
  obtain rfl | ⟨-, fixed⟩ | ⟨rfl, -⟩ := Handler.withTrampoline_eq_error refused
  · exact .missingVariableSlot
  · exact absurd movable fixed
  · exact .noWayBack

/-- No payload fails to be put together. -/
theorem payloadFor_ne_error (codes : CodeList) (handler : Handler) (loader : Bootstrap)
    (settings : PatchSettings) (hook entryPoint : UInt32) (init : Option UInt32)
    (fault : BuildError) :
    (payloadFor codes handler loader settings hook entryPoint init).outcome ≠ .error fault := by
  intro failed
  cases init with
  | some address =>
    rw [payloadFor, outcome_arenaPayload] at failed
    cases failed
  | none =>
    rw [payloadFor, outcome_legacyPayload] at failed
    cases failed

/-- The bytes of a payload are those of its parts. -/
theorem payloadFor_length {codes : CodeList} {handler : Handler} {loader : Bootstrap}
    {settings : PatchSettings} {hook entryPoint address : UInt32} {payload : Payload}
    (made : (payloadFor codes handler loader settings hook entryPoint (some address)).outcome =
      .ok payload) :
    payload.address = address ∧
      payload.bytes.length = loader.length + handler.length + codes.size := by
  obtain ⟨at_address, -, joined⟩ := arenaPayload_eq_ok made
  refine ⟨at_address, ?_⟩
  rw [joined, List.length_append, List.length_append, settings.length_cover]
  exact congrArg (· + _ + _) (loader.length_patch _)

/-- A branch can be written at a hook that was chosen, also when a section was added since. -/
theorem insertBranch_of_chosen {start looked installed : Image} {settings : PatchSettings}
    {hook replaced address : UInt32} {payload : Bytes} {area : Section} (sound : start.WellFormed)
    (ends : ∀ other ∈ start.sections, other.stop ≤ UInt32.size)
    (chosen : (chooseHook start settings).outcome = .ok (hook, replaced, looked))
    (added : Image.install payload address looked = .ok area installed)
    (target : UInt32) (init : Option UInt32) :
    ∃ out, Image.insertBranch target hook false (installed.startedAt init) = .ok () out := by
  obtain ⟨⟨cursor, rfl⟩, found⟩ := chooseHook_eq_ok sound chosen
  obtain ⟨home, member, held, -⟩ := found (Or.inr ends)
  obtain ⟨-, -, adds⟩ := Image.install_eq_ok added
  have looked : { start with cursor := cursor }.WellFormed := sound.of_same_layout rfl rfl
  have standing := adds.find?_of_mem looked member held.1
  have same : (installed.startedAt init).sections = installed.sections := by
    rw [Image.sections, Image.sections, Image.text_startedAt, Image.data_startedAt]
  rw [← same] at standing
  exact ⟨_, Image.write_at_of_find? standing held.2⟩

theorem install_canFail {settings : PatchSettings} {placement : Placement} {length : Nat}
    {looked : Image} {payload : Payload} {fault : BuildError}
    (fits : (placement = .legacy ∨ settings.initAddress.isSome = true ∨ UInt32.size ≤ length) ∨
      payload.bytes.length < UInt32.size ∧
        ∀ other ∈ looked.sections, ¬ other.Meets payload.address.toNat payload.bytes.length)
    (failed : ((Logged.ofEdit
      (Image.install payload.bytes payload.address looked)).mapError .payload).outcome =
        .error fault) :
    CanFail settings placement length fault := by
  rw [Logged.outcome_mapError] at failed
  obtain ⟨reason, refused, rfl⟩ := Logged.mapError_eq_error failed
  obtain ⟨after, refused⟩ := Logged.ofEdit_eq_error refused
  obtain ⟨-, rfl | ⟨rfl, taken⟩⟩ := Image.install_eq_error refused
  · exact .noFreeSections
  · obtain unsearched | ⟨small, free⟩ := fits
    · exact .sectionOverlap _ _ unsearched
    · obtain large | ⟨other, member, meets⟩ := taken
      · exact absurd small (Nat.not_lt.mpr large)
      · exact absurd meets (free other member)

/-- The payload that is installed fits where there was room for it with all codes in it. -/
theorem payloadFor_fits {image middle looked : Image} {codes prepared left : CodeList}
    {handler moved : Handler} {loader : Bootstrap} {settings : PatchSettings}
    {placement : Placement} {init : Option UInt32} {counts : Option AbsorptionCounts}
    {hook entryPoint : UInt32} {payload : Payload}
    (preparing : (prepare image codes handler loader settings placement).outcome =
      .ok (prepared, init))
    (absorbing : (absorbIfAsked image prepared settings).outcome = .ok (middle, left, counts))
    (sections : looked.sections = image.sections) (length : moved.length = handler.length)
    (made : (payloadFor left moved loader settings hook entryPoint init).outcome = .ok payload) :
    (placement = .legacy ∨ settings.initAddress.isSome = true ∨
      UInt32.size ≤ loader.length + handler.length + (codes.guarded settings).size) ∨
    payload.bytes.length < UInt32.size ∧
      ∀ other ∈ looked.sections, ¬ other.Meets payload.address.toNat payload.bytes.length := by
  obtain ⟨-, init_iff⟩ := prepare_eq_ok preparing
  cases placement with
  | legacy => exact Or.inl (Or.inl rfl)
  | arena =>
    obtain ⟨address, rfl⟩ := Option.isSome_iff_exists.mp (init_iff.mpr rfl)
    cases searched : settings.initAddress with
    | some given => exact Or.inl (Or.inr (Or.inl rfl))
    | none =>
      by_cases small : loader.length + handler.length + (codes.guarded settings).size < UInt32.size
      · obtain ⟨rfl, free⟩ := prepare_free preparing searched small
        obtain ⟨at_address, whole⟩ := payloadFor_length made
        have fewer := CodeList.size_le_of_sublist (absorbIfAsked_sublist absorbing)
        have shorter : payload.bytes.length ≤
            loader.length + handler.length + (codes.guarded settings).size := by
          rw [whole, length]
          exact Nat.add_le_add_left fewer _
        refine Or.inr ⟨Nat.lt_of_le_of_lt shorter small, ?_⟩
        intro other member meets
        rw [sections] at member
        rw [at_address] at meets
        exact free other member (meets.mono shorter)
      · exact Or.inl (Or.inr (Or.inr (Nat.le_of_not_lt small)))

/-- Whatever a build fails for, it is one of the faults of its early stages. -/
theorem patchImage_canFail {image : Image} {codes : CodeList} {handler : Handler}
    {loader : Bootstrap} {settings : PatchSettings} {fault : BuildError} (sound : image.WellFormed)
    (ends : ∀ other ∈ image.sections, other.stop ≤ UInt32.size)
    (failed : (patchImage image codes handler loader settings).outcome = .error fault) :
    CanFail settings (settings.placement.resolve handler.base handler.length codes.size)
      (loader.length + handler.length + (codes.guarded settings).size) fault := by
  unfold patchImage at failed
  dsimp only at failed
  generalize settings.placement.resolve handler.base handler.length codes.size = placement
    at failed ⊢
  obtain stopped | ⟨⟨prepared, init⟩, preparing, failed⟩ := Logged.bind_eq_error failed
  · exact prepare_canFail stopped
  rw [Logged.outcome_tell_bind] at failed
  obtain stopped | ⟨⟨middle, left, counts⟩, absorbing, failed⟩ := Logged.bind_eq_error failed
  · exact absorbIfAsked_canFail sound stopped
  obtain ⟨prepared_eq, init_iff⟩ := prepare_eq_ok preparing
  have absorbed := absorbIfAsked_eq_ok sound prepared_eq absorbing
  have start := absorbed.wellFormed sound
  dsimp only at failed
  split at failed
  · -- without codes that are left there is nothing more to do
    rw [Logged.outcome_tellAll_bind] at failed
    cases failed
  obtain stopped | ⟨-, -, failed⟩ := Logged.bind_eq_error failed
  · unfold Image.checkFreeSlot at stopped
    split at stopped <;> cases stopped
    exact .noFreeSections
  obtain stopped | ⟨⟨hook, replaced, looked⟩, chosen, failed⟩ := Logged.bind_eq_error failed
  · exact chooseHook_canFail stopped
  obtain stopped | ⟨moved, moving, failed⟩ := Logged.bind_eq_error failed
  · exact installTrampoline_canFail (chooseHook_isMovable chosen) stopped
  -- what the later stages need was seen to by now: room for the payload and a place for the branch
  have same_length := (Handler.withTrampoline_eq_ok (installTrampoline_eq_ok moving)).2
  have looked_eq : looked.sections = image.sections := by
    obtain ⟨⟨cursor, rfl⟩, -⟩ := chooseHook_eq_ok start chosen
    exact absorbed.sections_eq
  have unstopped := payloadFor_ne_error left moved loader settings hook image.entryPoint init fault
  have fits (payload : Payload)
      (made : (payloadFor left moved loader settings hook image.entryPoint init).outcome =
        .ok payload) :=
    payloadFor_fits preparing absorbing looked_eq same_length made
  have hooks (payload : Payload) (area : Section) (installed : Image)
      (added : Image.install payload.bytes payload.address looked = .ok area installed) :=
    insertBranch_of_chosen start (absorbed.sections_eq ▸ ends) chosen added moved.entry init
  -- with and without a loader, the payload is installed in the same way
  cases init
  all_goals
    obtain stopped | ⟨payload, made, failed⟩ := Logged.bind_eq_error failed
    · exact absurd stopped unstopped
    obtain stopped | ⟨⟨area, installed⟩, adding, failed⟩ := Logged.bind_eq_error failed
    · exact install_canFail (fits payload made) stopped
    obtain stopped | ⟨⟨⟨⟩, final⟩, -, failed⟩ := Logged.bind_eq_error failed
    · obtain ⟨out, hooked⟩ := hooks payload area installed
        (Logged.ofEdit_eq_ok (Logged.mapError_eq_ok adding))
      rw [Logged.outcome_mapError] at stopped
      obtain ⟨reason, refused, -⟩ := Logged.mapError_eq_error stopped
      obtain ⟨after, refused⟩ := Logged.ofEdit_eq_error refused
      cases hooked.symm.trans refused
    rw [Logged.outcome_tellAll_bind, Logged.outcome_tellAll_bind] at failed
    cases failed

/-- No build fails at a late stage: the branch at the hook can be written, its word can be moved, the
codes can be read again, and a gap that was found has room for what is installed in it. -/
theorem patchImage_fails_early {file : Bytes} {image : Image} {codes : CodeList}
    {handler : Handler} {loader : Bootstrap} {settings : PatchSettings} {fault : BuildError}
    (opened : Image.ofBytes file = .ok image)
    (ends : ∀ other ∈ image.sections, other.stop ≤ UInt32.size)
    (failed : (patchImage image codes handler loader settings).outcome = .error fault) :
    (∀ reason, fault ≠ .image reason) ∧
    (∀ word, fault ≠ .payload (.unmovableHook word)) ∧
    -- a given hook is accepted exactly if its word can be moved, and a found one always can
    (∀ (other : Image) address word,
      (∃ after, Image.verifyHook address other = .ok word after) ↔
        (∃ after, (do let _ ← Image.seek address; Image.readWord : Edit ImageError UInt32) other =
          .ok word after) ∧ Handler.IsMovable word) ∧
    (∀ (other : Image) chosen hook replaced after,
      (chooseHook other chosen).outcome = .ok (hook, replaced, after) →
        Handler.IsMovable replaced) ∧
    (∀ reason, fault ≠ .codes reason) ∧
    (∀ reason, fault = .absorption reason →
      settings.optimize = true ∧ ∃ serial, reason = .serial serial) ∧
    -- the codes are counted with the protection code in front of them
    (loader.length + handler.length + codes.size +
        (if settings.protect then protectionCode.length else 0) < UInt32.size →
      ∀ address length, fault = .payload (.image (.sectionOverlap address length)) →
        settings.placement.resolve handler.base handler.length codes.size = .legacy ∨
          settings.initAddress.isSome = true) := by
  have known := patchImage_canFail (Image.wellFormed_of_ofBytes opened) ends failed
  refine ⟨?_, ?_, ?_, ?_, ?_, ?_, ?_⟩
  · rintro reason rfl
    cases known
  · rintro word rfl
    cases known
  · exact fun other address word => Image.verifyHook_eq_ok_iff address word other
  · exact fun other chosen hook replaced after => chooseHook_isMovable
  · rintro reason rfl
    cases known
  · rintro reason rfl
    cases known with
    | badSerial fault asked => exact ⟨asked, fault, rfl⟩
  · rintro small address length rfl
    cases known with
    | sectionOverlap _ _ unsearched =>
      rw [length_guarded, ← Nat.add_assoc] at unsearched
      obtain legacy | given | large := unsearched
      · exact Or.inl legacy
      · exact Or.inr given
      · exact absurd small (Nat.not_lt.mpr large)

/-- A handler whose place in low memory reaches into the sample image. -/
def intrudingHandler : Handler :=
  { bareHandler with base := 0x80003080 }

theorem patchImage_fails_early_intruding :
    Image.ofBytes hookableFile = .ok hookableImage ∧
    (∀ other ∈ hookableImage.sections, other.stop ≤ UInt32.size) ∧
    ∃ fault length,
      (patchImage hookableImage mixedCodes intrudingHandler bareLoader
        (legacySettings (some 0x80003100))).outcome = .error fault ∧
      fault = .payload (.image (.sectionOverlap 0x80003080 length)) ∧
      (legacySettings (some 0x80003100)).placement.resolve intrudingHandler.base
        intrudingHandler.length mixedCodes.size = .legacy := by
  have ends : ∀ other ∈ hookableImage.sections, other.stop ≤ UInt32.size := by decide +kernel
  have refused : (match (patchImage hookableImage mixedCodes intrudingHandler bareLoader
      (legacySettings (some 0x80003100))).outcome with
      | .error fault =>
        decide (fault = .payload (.image (.sectionOverlap 0x80003080 0x138)))
      | .ok _ => false) = true := by decide +kernel
  split at refused
  next fault failed =>
    have shown := of_decide_eq_true refused
    have small : bareLoader.length + intrudingHandler.length + mixedCodes.size +
        (if (legacySettings (some 0x80003100)).protect then protectionCode.length else 0) <
          UInt32.size := by decide +kernel
    obtain ⟨-, -, -, -, -, -, overlap⟩ :=
      patchImage_fails_early ofBytes_hookableFile ends failed
    refine ⟨ofBytes_hookableFile, ends, fault, _, failed, shown, ?_⟩
    obtain legacy | given := overlap small _ _ shown
    · exact legacy
    · cases given
  · cases refused

end CubePatch
