import CubePatch.Proofs.Build.Hook

/-!
Room for the codes in low memory.

Whether handler and codes fit into low memory is asked twice. The placement adds up the base and the
lengths as natural numbers. After a build, what low memory has left behind the handler is compared
with the codes that are left; that is worked out in words, and a handler that ends behind the last
address seems to end behind zero, with all of low memory left.

## Main result

`legacy_room_exact`: the two agree unless the handler ends behind the last address and leaves enough
room where it comes out. A build in low memory warns of too little room exactly if it installs codes
that do not fit, and there does not seem to be room for that reason.
-/
namespace CubePatch

/-! ### Two measures -/

theorem resolve_automatic_eq_legacy_iff (base : UInt32) (handlerLength codesLength : Nat) :
    PlacementChoice.automatic.resolve base handlerLength codesLength = .legacy ↔
      base.toNat + handlerLength + codesLength ≤ legacyLimit.toNat := by
  simp only [PlacementChoice.resolve]
  split <;> simp_all

/-- What is left is counted from where the handler ends as a word. -/
theorem toNat_legacyAllocation (base : UInt32) (handlerLength : Nat) :
    (legacyAllocation base handlerLength).toNat =
      legacyLimit.toNat - (base.toNat + handlerLength) % UInt32.size := by
  have used : (base + UInt32.ofNat handlerLength).toNat =
      (base.toNat + handlerLength) % UInt32.size := by
    rw [UInt32.toNat_add, UInt32.toNat_ofNat', Nat.add_mod_mod]
  simp only [legacyAllocation]
  split
  next low => rw [UInt32.toNat_sub_of_le _ _ low, used]
  next high =>
    rw [UInt32.le_iff_toNat_le, used] at high
    rw [Nat.sub_eq_zero_of_le (Nat.le_of_not_le high)]
    rfl

/-- A handler that ends behind the last address, with enough room for codes where it comes out. -/
def FitsByWrapping (base : UInt32) (handlerLength codesLength : Nat) : Prop :=
  UInt32.size ≤ base.toNat + handlerLength ∧
    (base.toNat + handlerLength) % UInt32.size + codesLength ≤ legacyLimit.toNat

/-- Room is left where handler and codes fit, and where they only seem to. -/
theorem le_legacyAllocation_iff (base : UInt32) (handlerLength : Nat) {codesLength : Nat}
    (filled : 1 ≤ codesLength) :
    codesLength ≤ (legacyAllocation base handlerLength).toNat ↔
      base.toNat + handlerLength + codesLength ≤ legacyLimit.toNat ∨
        FitsByWrapping base handlerLength codesLength := by
  have below : legacyLimit.toNat < UInt32.size := by decide
  rw [toNat_legacyAllocation]
  unfold FitsByWrapping
  by_cases inside : base.toNat + handlerLength < UInt32.size
  · rw [Nat.mod_eq_of_lt inside]
    omega
  · omega

/-- Handler and codes that only seem to fit do not. -/
theorem FitsByWrapping.limit_lt {base : UInt32} {handlerLength codesLength : Nat}
    (wraps : FitsByWrapping base handlerLength codesLength) :
    legacyLimit.toNat < base.toNat + handlerLength + codesLength := by
  have below : legacyLimit.toNat < UInt32.size := by decide
  have beyond := wraps.1
  omega

/-- The two measures agree unless the codes only seem to fit. -/
theorem resolve_agrees_iff (base : UInt32) (handlerLength : Nat) {codesLength : Nat}
    (filled : 1 ≤ codesLength) :
    (PlacementChoice.automatic.resolve base handlerLength codesLength = .legacy ↔
        codesLength ≤ (legacyAllocation base handlerLength).toNat) ↔
      ¬ FitsByWrapping base handlerLength codesLength := by
  rw [resolve_automatic_eq_legacy_iff, le_legacyAllocation_iff base handlerLength filled]
  constructor
  · intro agree wraps
    exact Nat.not_le_of_lt wraps.limit_lt (agree.mpr (Or.inr wraps))
  · intro unwrapped
    rw [or_iff_left unwrapped]

/-! ### Telling one event -/

namespace Logged

@[simp] theorem events_pure (value : α) : (pure value : Logged ε α).events = [] := rfl

@[simp] theorem events_ofExcept (outcome : Except ε α) : (ofExcept outcome).events = [] := rfl

@[simp] theorem events_tell (event : Event) : (tell event : Logged ε Unit).events = [event] := rfl

@[simp] theorem events_tellAll (events : List Event) :
    (tellAll events : Logged ε Unit).events = events := rfl

@[simp] theorem events_tellIf (reason : Prop) [Decidable reason] (event : Event) :
    (tellIf reason event : Logged ε Unit).events = if reason then [event] else [] := rfl

@[simp] theorem events_fail (fault : ε) : (fail fault : Logged ε α).events = [] := rfl

@[simp] theorem events_mapError (convert : ε → δ) (step : Logged ε α) :
    (mapError convert step).events = step.events := rfl

@[simp] theorem events_ofEdit (result : EStateM.Result ε σ α) : (ofEdit result).events = [] := by
  cases result <;> rfl

theorem mem_events_bind {first : Logged ε α} {next : α → Logged ε β} {event : Event} :
    event ∈ (first >>= next).events ↔ event ∈ first.events ∨
      ∃ value, first.outcome = .ok value ∧ event ∈ (next value).events := by
  show event ∈ (andThen first next).events ↔ _
  unfold andThen
  cases first.outcome <;> simp

theorem notMem_events_bind {first : Logged ε α} {next : α → Logged ε β} {event : Event}
    (quiet : event ∉ first.events) (behind : ∀ value, event ∉ (next value).events) :
    event ∉ (first >>= next).events := by
  rw [mem_events_bind]
  rintro (told | ⟨value, -, told⟩)
  · exact quiet told
  · exact behind value told

/-- Whether an event is told can be seen from the outcome: it is told exactly if there is a value
that gives reason to. -/
def Tells (step : Logged ε α) (event : Event) (reason : α → Prop) : Prop :=
  event ∈ step.events ↔ ∃ value, step.outcome = .ok value ∧ reason value

/-- A step that does not tell the event leaves it to the next one. -/
theorem Tells.bind {first : Logged ε α} {next : α → Logged ε β} {event : Event}
    {reason : β → Prop} (quiet : event ∉ first.events)
    (behind : ∀ value, first.outcome = .ok value → (next value).Tells event reason) :
    (first >>= next).Tells event reason := by
  unfold Tells at behind ⊢
  rw [mem_events_bind, outcome_bind, or_iff_right quiet]
  cases done : first.outcome with
  | error fault => simp [Except.bind]
  | ok value => simpa [Except.bind] using behind value done

theorem tells_pure {event : Event} {reason : α → Prop} {value : α} (unfounded : ¬ reason value) :
    (pure value : Logged ε α).Tells event reason := by
  simp [Tells, unfounded]

end Logged

/-! ### Warning of too little room

No stage of a build does so before its end, where a branch at the hook has been written. A build
that fails does not get there, and neither does one that has no codes left. -/

section Quiet

variable {allocation : UInt32} {size : Nat}

theorem tooSmall_notMem_ofReading {reading : Except CodeFault (CodeList × Bytes)} :
    .allocationTooSmall allocation size ∉ (CodeList.ofReading reading).events := by
  refine Logged.notMem_events_bind (by simp) fun result => ?_
  exact Logged.notMem_events_bind (by simp) (by simp)

theorem tooSmall_notMem_chooseInit {image : Image} {given : Option UInt32} {needed : UInt32} :
    .allocationTooSmall allocation size ∉ (image.chooseInit given needed).events := by
  unfold Image.chooseInit
  split
  · simp
  · refine Logged.notMem_events_bind (by simp) fun _ => ?_
    exact Logged.notMem_events_bind (by simp) (by simp)

theorem tooSmall_notMem_prepare {image : Image} {codes : CodeList} {handler : Handler}
    {loader : Bootstrap} {settings : PatchSettings} {placement : Placement} :
    .allocationTooSmall allocation size ∉
      (prepare image codes handler loader settings placement).events := by
  cases placement with
  | legacy =>
    refine Logged.notMem_events_bind (by simp) fun _ => ?_
    exact Logged.notMem_events_bind (by simp) (by simp)
  | arena =>
    -- the search for an address is the same with and without the protection code
    have searching (list : CodeList) : .allocationTooSmall allocation size ∉
        (do let address ← (image.chooseInit settings.initAddress (UInt32.ofNat
              (loader.length + handler.length + list.size))).mapError .payload
            return (list, some address) : Logged BuildError (CodeList × Option UInt32)).events :=
      Logged.notMem_events_bind tooSmall_notMem_chooseInit (by simp)
    simp only [prepare]
    split
    · exact Logged.notMem_events_bind tooSmall_notMem_ofReading searching
    · exact Logged.notMem_events_bind (by simp) searching

theorem tooSmall_notMem_absorbIfAsked {image : Image} {codes : CodeList}
    {settings : PatchSettings} :
    .allocationTooSmall allocation size ∉ (absorbIfAsked image codes settings).events := by
  have passing : .allocationTooSmall allocation size ∉ (codes.absorb image).events := by
    unfold Absorption.events
    rw [List.mem_append, List.mem_flatMap]
    rintro (⟨⟨code, fate⟩, -, told⟩ | told)
    · cases fate <;> simp [Absorption.eventsOf] at told
    · split at told <;> simp at told
  unfold absorbIfAsked
  split
  · refine Logged.notMem_events_bind passing fun _ => ?_
    split
    · simp
    · exact Logged.notMem_events_bind (by simp) (by simp)
  · simp

theorem tooSmall_notMem_chooseHook {image : Image} {settings : PatchSettings} :
    .allocationTooSmall allocation size ∉ (chooseHook image settings).events := by
  unfold chooseHook
  split
  · refine Logged.notMem_events_bind (by simp) fun _ => ?_
    exact Logged.notMem_events_bind (by simp) (by simp)
  · refine Logged.notMem_events_bind (by simp) fun _ => ?_
    exact Logged.notMem_events_bind (by simp) (by simp)

theorem tooSmall_notMem_installTrampoline {handler : Handler} {hook replaced : UInt32} :
    .allocationTooSmall allocation size ∉ (installTrampoline handler hook replaced).events := by
  refine Logged.notMem_events_bind (by simp) fun _ => ?_
  exact Logged.notMem_events_bind (by simp) (by simp)

theorem tooSmall_notMem_arenaPayload {codes : CodeList} {handler : Handler} {loader : Bootstrap}
    {settings : PatchSettings} {hook entryPoint init : UInt32} :
    .allocationTooSmall allocation size ∉
      (arenaPayload codes handler loader settings hook entryPoint init).events :=
  Logged.notMem_events_bind (by simp) (by simp)

theorem tooSmall_notMem_legacyPayload {codes : CodeList} {handler : Handler}
    {settings : PatchSettings} :
    .allocationTooSmall allocation size ∉ (legacyPayload codes handler settings).events := by
  refine Logged.notMem_events_bind (by simp) fun _ => ?_
  refine Logged.notMem_events_bind (by simp) fun _ => ?_
  dsimp only
  split
  · exact Logged.notMem_events_bind (by simp) (by simp)
  · exact Logged.notMem_events_bind (by simp) (by simp)

theorem tooSmall_notMem_imageEvents {image : Image} :
    .allocationTooSmall allocation size ∉ image.events := by
  simp [Image.events]

theorem tooSmall_mem_allocationEvents_iff {reserved : UInt32} {needed : Nat} :
    .allocationTooSmall allocation size ∈ allocationEvents reserved needed ↔
      reserved.toNat < needed ∧ allocation = reserved ∧ size = needed := by
  unfold allocationEvents
  rw [List.mem_append]
  constructor
  · rintro (told | told)
    · split at told <;> simp_all
    · split at told
      · simp at told
      · split at told <;> simp at told
  · rintro ⟨short, rfl, rfl⟩
    simp [short]

/-- The reason to warn of too little room that a report gives. -/
def BuildReport.IsShort (report : BuildReport) (allocation : UInt32) (size : Nat) : Prop :=
  report.area.isSome = true ∧ allocation = report.allocation ∧ size = report.codesLength ∧
    report.allocation.toNat < report.codesLength

/-- What is told at the end of a build that installs codes. -/
theorem tells_tooSmall_at_end {out : Image} {report : BuildReport} {reserved : UInt32}
    {needed : Nat} (added : report.area.isSome = true) (reserved_eq : report.allocation = reserved)
    (needed_eq : report.codesLength = needed) :
    (do Logged.tellAll (allocationEvents reserved needed)
        Logged.tellAll out.events
        return (out, report) : Logged BuildError (Image × BuildReport)).Tells
      (.allocationTooSmall allocation size) fun result => result.2.IsShort allocation size := by
  subst reserved_eq needed_eq
  unfold Logged.Tells
  rw [Logged.mem_events_bind, Logged.events_tellAll, tooSmall_mem_allocationEvents_iff]
  constructor
  · rintro (⟨short, same, filled⟩ | ⟨-, -, told⟩)
    · exact ⟨_, rfl, added, same, filled, short⟩
    · exact absurd told (Logged.notMem_events_bind tooSmall_notMem_imageEvents (by simp))
  · rintro ⟨result, ended, -, same, filled, short⟩
    cases ended
    exact Or.inl ⟨short, same, filled⟩

/-- A build warns of too little room exactly if it succeeds with a section that was added, and the
codes in it are more than what the report says was reserved. -/
theorem patchImage_tells_tooSmall (image : Image) (codes : CodeList) (handler : Handler)
    (loader : Bootstrap) (settings : PatchSettings) :
    (patchImage image codes handler loader settings).Tells (.allocationTooSmall allocation size)
      fun result => result.2.IsShort allocation size := by
  refine .bind tooSmall_notMem_prepare fun ⟨prepared, init⟩ _ => ?_
  refine .bind (by simp) fun _ _ => ?_
  refine .bind tooSmall_notMem_absorbIfAsked fun ⟨middle, left, counts⟩ _ => ?_
  dsimp only
  split
  · refine .bind tooSmall_notMem_imageEvents fun _ _ => ?_
    exact Logged.tells_pure (by simp [BuildReport.IsShort])
  refine .bind (by simp) fun _ _ => ?_
  refine .bind tooSmall_notMem_chooseHook fun ⟨hook, replaced, looked⟩ _ => ?_
  refine .bind tooSmall_notMem_installTrampoline fun moved _ => ?_
  -- with and without a loader, the end is the same
  cases init with
  | some address =>
    refine .bind tooSmall_notMem_arenaPayload fun payload _ => ?_
    refine .bind (by simp) fun ⟨area, installed⟩ _ => ?_
    refine .bind (by simp) fun ⟨⟨⟩, out⟩ _ => ?_
    exact tells_tooSmall_at_end rfl rfl rfl
  | none =>
    refine .bind tooSmall_notMem_legacyPayload fun payload _ => ?_
    refine .bind (by simp) fun ⟨area, installed⟩ _ => ?_
    refine .bind (by simp) fun ⟨⟨⟩, out⟩ _ => ?_
    exact tells_tooSmall_at_end rfl rfl rfl

end Quiet

/-! ### Builds in low memory -/

section Legacy

variable {image out : Image} {codes : CodeList} {handler : Handler} {loader : Bootstrap}
  {settings : PatchSettings} {report : BuildReport}

theorem CodeList.size_pos (list : CodeList) : 1 ≤ list.size := by
  rw [size_eq]
  omega

/-- A build in low memory that installs codes reports what is left behind the handler it was
given. -/
theorem allocation_of_legacy
    (patched : (patchImage image codes handler loader settings).outcome = .ok (out, report))
    (legacy : report.placement = .legacy) (added : report.area.isSome = true) :
    report.allocation = legacyAllocation handler.base handler.length := by
  obtain ⟨prepared, init, middle, left, counts, -, preparing, -, -, finish⟩ :=
    patchImage_stages patched
  obtain ⟨-, -, no_area⟩ | ⟨-, stages, -, reserved, -, -⟩ := finish
  · rw [no_area] at added
    cases added
  obtain rfl : init = none := by
    rw [← Option.not_isSome_iff_eq_none, (prepare_eq_ok preparing).2, legacy]
    exact Placement.noConfusion
  obtain ⟨-, left_room, -⟩ := legacyPayload_eq_ok stages.made
  obtain ⟨same_base, same_length⟩ := Handler.withTrampoline_eq_ok stages.trampoline
  rw [reserved, left_room, same_base, same_length]

theorem placement_of_patchImage
    (patched : (patchImage image codes handler loader settings).outcome = .ok (out, report)) :
    report.placement = settings.placement.resolve handler.base handler.length codes.size := by
  obtain ⟨prepared, init, middle, left, counts, placed, -⟩ := patchImage_stages patched
  exact placed

/-- The report of a build in low memory gives reason to warn if codes were installed for which there
is no room, and for which there does not seem to be any. -/
theorem isShort_iff_of_legacy {allocation : UInt32} {size : Nat}
    (patched : (patchImage image codes handler loader settings).outcome = .ok (out, report))
    (legacy : report.placement = .legacy) :
    report.IsShort allocation size ↔ report.area.isSome = true ∧
      allocation = legacyAllocation handler.base handler.length ∧ size = report.codesLength ∧
      legacyLimit.toNat < handler.base.toNat + handler.length + report.codesLength ∧
      ¬ FitsByWrapping handler.base handler.length report.codesLength := by
  have filled : 1 ≤ report.codesLength := by
    obtain ⟨prepared, init, middle, left, counts, -, -, -, measured, -⟩ :=
      patchImage_stages patched
    exact measured ▸ left.size_pos
  have room := le_legacyAllocation_iff handler.base handler.length filled
  unfold BuildReport.IsShort
  refine and_congr_right fun added => ?_
  rw [allocation_of_legacy patched legacy added, ← Nat.not_le, room, not_or, Nat.not_le]

/-- A build in low memory warns of too little room exactly if it succeeds and its report gives
reason to. -/
theorem tooSmall_mem_of_legacy (allocation : UInt32) (size : Nat)
    (legacy : settings.placement.resolve handler.base handler.length codes.size = .legacy) :
    .allocationTooSmall allocation size ∈
        (patchImage image codes handler loader settings).events ↔
      ∃ out report,
        (patchImage image codes handler loader settings).outcome = .ok (out, report) ∧
        report.area.isSome = true ∧
        allocation = legacyAllocation handler.base handler.length ∧ size = report.codesLength ∧
        legacyLimit.toNat < handler.base.toNat + handler.length + report.codesLength ∧
        ¬ FitsByWrapping handler.base handler.length report.codesLength := by
  have low {out : Image} {report : BuildReport}
      (patched : (patchImage image codes handler loader settings).outcome = .ok (out, report)) :
      report.placement = .legacy := (placement_of_patchImage patched).trans legacy
  refine (patchImage_tells_tooSmall image codes handler loader settings).trans ?_
  constructor
  · rintro ⟨⟨out, report⟩, patched, short⟩
    exact ⟨out, report, patched, (isShort_iff_of_legacy patched (low patched)).mp short⟩
  · rintro ⟨out, report, patched, short⟩
    exact ⟨(out, report), patched, (isShort_iff_of_legacy patched (low patched)).mpr short⟩

/-- Where low memory was chosen because everything fits, nothing is said about room. -/
theorem tooSmall_notMem_of_automatic (allocation : UInt32) (size : Nat)
    (automatic : settings.placement = .automatic)
    (legacy : settings.placement.resolve handler.base handler.length codes.size = .legacy) :
    .allocationTooSmall allocation size ∉
      (patchImage image codes handler loader settings).events := by
  rw [tooSmall_mem_of_legacy allocation size legacy]
  rintro ⟨out, report, patched, -, -, -, beyond, -⟩
  obtain ⟨prepared, init, middle, left, counts, placed, preparing, absorbing, measured, -⟩ :=
    patchImage_stages patched
  -- no code is put in front of the given ones, and absorbing puts none in
  have fewer : left.size ≤ codes.size := by
    refine CodeList.size_le_of_sublist ((absorbIfAsked_sublist absorbing).trans ?_)
    rw [(prepare_eq_ok preparing).1, placed, legacy]
    exact List.Sublist.refl _
  rw [automatic, resolve_automatic_eq_legacy_iff] at legacy
  omega

/-- For a handler of any base and length, the placement and the warning agree on whether codes fit
behind it in low memory, unless the handler ends behind the last address and leaves room for the
codes where it comes out. A build that places this handler in low memory warns exactly if it
installs codes that end behind the limit and do not seem to fit in this way. -/
theorem legacy_room_exact (base : UInt32) (handlerLength : Nat) :
    (∀ codesLength, 1 ≤ codesLength →
      ((PlacementChoice.automatic.resolve base handlerLength codesLength = .legacy ↔
          codesLength ≤ (legacyAllocation base handlerLength).toNat) ↔
        ¬ FitsByWrapping base handlerLength codesLength)) ∧
    ∀ image codes handler loader settings, handler.base = base → handler.length = handlerLength →
      settings.placement.resolve base handlerLength codes.size = .legacy →
      ∀ allocation size,
        .allocationTooSmall allocation size ∈
            (patchImage image codes handler loader settings).events ↔
          ∃ out report,
            (patchImage image codes handler loader settings).outcome = .ok (out, report) ∧
            report.area.isSome = true ∧
            allocation = legacyAllocation base handlerLength ∧ size = report.codesLength ∧
            legacyLimit.toNat < base.toNat + handlerLength + report.codesLength ∧
            ¬ FitsByWrapping base handlerLength report.codesLength := by
  refine ⟨fun codesLength filled => resolve_agrees_iff base handlerLength filled, ?_⟩
  rintro image codes handler loader settings rfl rfl legacy allocation size
  exact tooSmall_mem_of_legacy allocation size legacy

/-- A handler that ends where low memory does. -/
def brimHandler : Handler :=
  { bareHandler with base := 0x80002F00 }

/-- A handler that ends behind the last address. -/
def wrappedHandler : Handler :=
  { bareHandler with base := 0xFFFFFF00 }

theorem legacy_room_exact_brimHandler :
    1 ≤ mixedCodes.size ∧
    ¬ FitsByWrapping brimHandler.base brimHandler.length mixedCodes.size ∧
    (PlacementChoice.automatic.resolve brimHandler.base brimHandler.length mixedCodes.size =
        .legacy ↔
      mixedCodes.size ≤ (legacyAllocation brimHandler.base brimHandler.length).toNat) ∧
    (legacySettings (some 0x80003100)).placement.resolve brimHandler.base brimHandler.length
      mixedCodes.size = .legacy ∧
    .allocationTooSmall 0 mixedCodes.size ∈ (patchImage hookableImage mixedCodes brimHandler
      bareLoader (legacySettings (some 0x80003100))).events := by
  have inside : ¬ FitsByWrapping brimHandler.base brimHandler.length mixedCodes.size := by
    unfold FitsByWrapping
    decide +kernel
  have legacy : (legacySettings (some 0x80003100)).placement.resolve brimHandler.base
      brimHandler.length mixedCodes.size = .legacy := rfl
  have built : ((patchImage hookableImage mixedCodes brimHandler bareLoader
      (legacySettings (some 0x80003100))).outcome.toOption.any fun result =>
        decide (result.2.area.isSome = true ∧ mixedCodes.size = result.2.codesLength)) = true := by
    decide +kernel
  obtain ⟨⟨out, report⟩, patched, shown⟩ := Logged.exists_of_any built
  obtain ⟨added, measured⟩ := of_decide_eq_true shown
  have exact_room := legacy_room_exact brimHandler.base brimHandler.length
  refine ⟨mixedCodes.size_pos, inside, (exact_room.1 _ mixedCodes.size_pos).mpr inside, legacy,
    (exact_room.2 _ _ _ _ _ rfl rfl legacy _ _).mpr
      ⟨out, report, patched, added, ?_, measured, ?_, ?_⟩⟩
  · decide +kernel
  · rw [← measured]
    decide +kernel
  · exact measured ▸ inside

/-- A handler that ends behind the last address is not placed in low memory on its own, and it is
installed there on request without a word on the room, all of which seems to be left. -/
theorem wrapped_handler_seems_to_fit :
    PlacementChoice.automatic.resolve wrappedHandler.base wrappedHandler.length mixedCodes.size =
      .arena ∧
    mixedCodes.size ≤ (legacyAllocation wrappedHandler.base wrappedHandler.length).toNat ∧
    Image.ofBytes hookableFile = .ok hookableImage ∧
    ∃ out report,
      (patchImage hookableImage mixedCodes wrappedHandler bareLoader
        (legacySettings (some 0x80003100))).outcome = .ok (out, report) ∧
      report.placement = .legacy ∧ report.area.isSome = true ∧
      legacyLimit.toNat <
        wrappedHandler.base.toNat + wrappedHandler.length + report.codesLength ∧
      ∀ allocation size, .allocationTooSmall allocation size ∉
        (patchImage hookableImage mixedCodes wrappedHandler bareLoader
          (legacySettings (some 0x80003100))).events := by
  have legacy : (legacySettings (some 0x80003100)).placement.resolve wrappedHandler.base
      wrappedHandler.length mixedCodes.size = .legacy := rfl
  have built : ((patchImage hookableImage mixedCodes wrappedHandler bareLoader
      (legacySettings (some 0x80003100))).outcome.toOption.any fun result =>
        decide (result.2.area.isSome = true ∧ mixedCodes.size = result.2.codesLength)) = true := by
    decide +kernel
  obtain ⟨⟨out, report⟩, patched, shown⟩ := Logged.exists_of_any built
  obtain ⟨added, measured⟩ := of_decide_eq_true shown
  have wraps : FitsByWrapping wrappedHandler.base wrappedHandler.length report.codesLength := by
    rw [← measured]
    unfold FitsByWrapping
    decide +kernel
  refine ⟨by decide +kernel, by decide +kernel, ofBytes_hookableFile, out, report, patched,
    (placement_of_patchImage patched).trans legacy, added, wraps.limit_lt, ?_⟩
  intro allocation size told
  obtain ⟨other, result, again, -, -, -, -, unwrapped⟩ :=
    (tooSmall_mem_of_legacy allocation size legacy).mp told
  rw [patched] at again
  cases again
  exact unwrapped wraps

end Legacy

end CubePatch
