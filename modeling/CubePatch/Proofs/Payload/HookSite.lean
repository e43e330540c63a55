import CubePatch.Proofs.Payload.Hook
import CubePatch.Proofs.Search

/-!
Where hooks are, and which addresses are accepted as one.

A hook is found by two searches, one inside the other: for a routine by its bytes, at any byte, and
from there for its return, in whole instructions. A hook that is given is looked at through the
cursor and by decoding its word. Both are said here of the bytes of a section: the first place where
something stands, and the word at an address. What is found is accepted, since both look at the same
bytes.

## Main result

`hook_sites_exact`: which hook is found, what is said of an address that is given, and that nothing
but the cursor is changed.
-/
namespace CubePatch

/-! ### Routines -/

/-- A routine starts where the signature of the older console first stands, or else that of the newer
one. -/
def HookKind.StartsAt (kind : HookKind) (code : Bytes) (start : Nat) : Prop :=
  ∃ older newer, kind.signatures = [older, newer] ∧
    (IsLeast {place | StandsAt older code place} start ∨
      (∀ place, ¬ StandsAt older code place) ∧ IsLeast {place | StandsAt newer code place} start)

/-- A routine ends with the first return that is a number of whole instructions behind its start. -/
def HookKind.EndsAt (kind : HookKind) (code : Bytes) (offset : Nat) : Prop :=
  ∃ start, kind.StartsAt code start ∧
    IsLeast {place | (∃ count, place = start + 4 * count) ∧ place + 4 ≤ code.length ∧
      wordAt code place = returnWord} offset

namespace HookKind

theorem exists_signatures (kind : HookKind) :
    ∃ older newer, kind.signatures = [older, newer] ∧ older ≠ [] ∧ newer ≠ [] := by
  cases kind <;> exact ⟨_, _, rfl, List.cons_ne_nil _ _, List.cons_ne_nil _ _⟩

theorem routine?_eq_some_iff (kind : HookKind) (code : Bytes) (start : Nat) :
    kind.routine? code = some start ↔ kind.StartsAt code start := by
  obtain ⟨older, newer, shape, some_older, some_newer⟩ := kind.exists_signatures
  unfold routine? StartsAt
  simp only [shape, List.cons.injEq, and_true]
  rw [List.findSome?_cons, List.findSome?_cons, List.findSome?_nil]
  constructor
  · intro found
    refine ⟨older, newer, ⟨rfl, rfl⟩, ?_⟩
    split at found
    next place here =>
      cases found
      exact Or.inl ((findPattern?_eq_some_iff some_older start).mp here)
    next missing =>
      split at found
      next place here =>
        cases found
        exact Or.inr ⟨(findPattern?_eq_none_iff some_older).mp missing,
          (findPattern?_eq_some_iff some_newer start).mp here⟩
      · cases found
  · rintro ⟨_, _, ⟨rfl, rfl⟩, least | ⟨missing, least⟩⟩
    · rw [(findPattern?_eq_some_iff some_older start).mpr least]
    · rw [(findPattern?_eq_none_iff some_older).mpr missing,
        (findPattern?_eq_some_iff some_newer start).mpr least]

/-- A return is found behind the start of a routine, at the first of its whole instructions. -/
theorem findWord?_drop_eq_some_iff (code : Bytes) (start index : Nat) :
    findWord? returnWord (code.drop start) = some index ↔
      IsLeast {place | (∃ count, place = start + 4 * count) ∧ place + 4 ≤ code.length ∧
        wordAt code place = returnWord} (start + index) := by
  -- the search counts from the start of the routine, the statement from that of the section
  have word (place : Nat) : HasWordAt (code.drop start) returnWord place ↔
      (∃ count, start + place = start + 4 * count) ∧ start + place + 4 ≤ code.length ∧
        wordAt code (start + place) = returnWord := by
    have same : wordAt (code.drop start) place = wordAt code (start + place) := by
      rw [wordAt, wordAt, List.drop_drop]
    have room : place + 4 ≤ (code.drop start).length ↔ start + place + 4 ≤ code.length := by
      rw [List.length_drop]
      omega
    rw [HasWordAt, same, room]
    simp only [Nat.add_left_cancel_iff]
    rfl
  rw [findWord?_eq_some_iff, word]
  refine and_congr_right fun _ => ?_
  constructor
  · rintro least _ ⟨⟨count, rfl⟩, standing⟩
    exact Nat.add_le_add_left (least _ ((word _).mpr ⟨⟨count, rfl⟩, standing⟩)) start
  · intro least other standing
    exact Nat.le_of_add_le_add_left (least ((word other).mp standing))

theorem return?_eq_some_iff (kind : HookKind) (code : Bytes) (offset : Nat) :
    kind.return? code = some offset ↔ kind.EndsAt code offset := by
  unfold return? EndsAt
  constructor
  · intro found
    split at found
    · cases found
    next start routine =>
      obtain ⟨index, here, rfl⟩ := Option.map_eq_some_iff.mp found
      exact ⟨start, (kind.routine?_eq_some_iff code start).mp routine,
        (findWord?_drop_eq_some_iff code start index).mp here⟩
  · rintro ⟨start, starts, least⟩
    obtain ⟨⟨count, rfl⟩, -⟩ := id least.1
    rw [(kind.routine?_eq_some_iff code start).mpr starts]
    dsimp only
    rw [(findWord?_drop_eq_some_iff code start _).mpr least, Option.map_some]

end HookKind

namespace Image

/-! ### The word at an address -/

/-- The word that stands at an address is read there, and nothing but the cursor is moved. -/
theorem readWord_at_of_holdsWord {image : Image} (laid : image.IsLaidOut) {address word : UInt32}
    (holds : image.HoldsWord address word) : ∃ cursor,
    (do let _ ← seek address; readWord : Edit ImageError UInt32) image =
      .ok word { image with cursor := cursor } := by
  obtain ⟨area, member, held, rfl⟩ := holds
  have found := (find?_contains_of_apart laid.apart address area).mpr ⟨member, held.1⟩
  obtain ⟨after, read⟩ := readWord_at_of_find? found held.2
  obtain ⟨-, cursor, -, -, -, rfl⟩ := readWord_at_eq_ok read
  exact ⟨cursor, by rw [read, wordAt_sectionBytes held]⟩

/-! ### Hooks that are found -/

/-- A routine ends at an offset of a text section, and none in a section of a smaller slot. -/
structure IsFirstSite (image : Image) (kind : HookKind) (area : Section) (offset : Nat) : Prop where
  listed : area ∈ image.text
  ends : kind.EndsAt (image.sectionBytes area) offset
  first : ∀ other ∈ image.text, other.slot < area.slot →
    ∀ place, ¬ kind.EndsAt (image.sectionBytes other) place

theorem hookIn?_eq_none_iff (image : Image) (kind : HookKind) (area : Section) :
    image.hookIn? kind area = none ↔ ∀ place, ¬ kind.EndsAt (image.sectionBytes area) place := by
  rw [hookIn?, Option.map_eq_none_iff, Option.eq_none_iff_forall_ne_some]
  simp only [ne_eq, HookKind.return?_eq_some_iff]

/-- The search ends at the first section with a routine that returns, whether or not the hook has an
address there. -/
theorem findSome?_hookIn?_eq_some_iff {image : Image} (laid : image.IsLaidOut) (kind : HookKind)
    (found : Except HookError HookSite) :
    image.text.findSome? (image.hookIn? kind) = some found ↔
      ∃ area offset, image.IsFirstSite kind area offset ∧
        found = HookSite.inSection area offset := by
  rw [List.findSome?_eq_some_iff]
  have ordered := laid.pairwise_slot
  constructor
  · rintro ⟨before, area, after, split, here, none_before⟩
    obtain ⟨offset, ends, rfl⟩ := Option.map_eq_some_iff.mp here
    -- the text sections are listed in the order of their slots
    rw [split, List.pairwise_append] at ordered
    obtain ⟨-, behind, -⟩ := ordered
    refine ⟨area, offset, ⟨by simp [split], (HookKind.return?_eq_some_iff _ _ _).mp ends, ?_⟩, rfl⟩
    intro other member smaller
    rw [split, List.mem_append, List.mem_cons] at member
    obtain earlier | rfl | later := member
    · exact (image.hookIn?_eq_none_iff kind other).mp (none_before other earlier)
    · exact absurd smaller (Nat.lt_irrefl _)
    · exact absurd smaller (Nat.lt_asymm ((List.pairwise_cons.mp behind).1 other later))
  · rintro ⟨area, offset, ⟨listed, ends, first⟩, rfl⟩
    obtain ⟨before, after, split⟩ := List.append_of_mem listed
    refine ⟨before, area, after, split, ?_, ?_⟩
    · rw [hookIn?, (HookKind.return?_eq_some_iff _ _ _).mpr ends, Option.map_some]
    · intro other earlier
      rw [split, List.pairwise_append] at ordered
      exact (image.hookIn?_eq_none_iff kind other).mpr (first other (by simp [split, earlier])
        (ordered.2.2 other earlier area List.mem_cons_self))

/-- A return that ends a routine stands at its address, if the section ends in the address space. -/
theorem IsFirstSite.holdsWord {image : Image} (laid : image.IsLaidOut) {kind : HookKind}
    {area : Section} {offset : Nat} (site : image.IsFirstSite kind area offset)
    (top : area.stop ≤ UInt32.size) :
    (area.loadAddress + UInt32.ofNat offset).toNat = area.loadAddress.toNat + offset ∧
      image.HoldsWord (area.loadAddress + UInt32.ofNat offset) returnWord := by
  have listed : area ∈ image.sections := List.mem_append_left _ site.listed
  exact holdsWord_of_return? listed (laid.inFile area listed) top
    ((HookKind.return?_eq_some_iff _ _ _).mpr site.ends)

/-- In a section that ends in the address space, every hook has an address. -/
theorem IsFirstSite.inSection_eq {image : Image} (laid : image.IsLaidOut) {kind : HookKind}
    {area : Section} {offset : Nat} (site : image.IsFirstSite kind area offset)
    (top : area.stop ≤ UInt32.size) :
    HookSite.inSection area offset =
      .ok ⟨area.slot, area.loadAddress + UInt32.ofNat offset⟩ := by
  have reached := (site.holdsWord laid top).1
  have bound := (area.loadAddress + UInt32.ofNat offset).toNat_lt
  have small : (UInt32.ofNat offset).toNat ≤ offset := by
    rw [UInt32.toNat_ofNat']
    exact Nat.mod_le _ _
  unfold HookSite.inSection
  rw [checkedSum_of_lt (by unfold UInt32.size; omega)]

theorem locateHook_eq_ok_iff {image : Image} (laid : image.IsLaidOut)
    (tops : ∀ area ∈ image.text, area.stop ≤ UInt32.size) (kind : HookKind) (site : HookSite) :
    image.locateHook kind = .ok site ↔ ∃ area offset, image.IsFirstSite kind area offset ∧
      site = ⟨area.slot, area.loadAddress + UInt32.ofNat offset⟩ := by
  have found : image.locateHook kind = .ok site ↔
      image.text.findSome? (image.hookIn? kind) = some (.ok site) := by
    unfold locateHook
    cases image.text.findSome? (image.hookIn? kind) <;> simp
  rw [found, findSome?_hookIn?_eq_some_iff laid]
  refine exists_congr fun area => exists_congr fun offset => and_congr_right fun first => ?_
  rw [first.inSection_eq laid (tops area first.listed), Except.ok.injEq]

theorem locateHook_eq_error_iff {image : Image} (laid : image.IsLaidOut)
    (tops : ∀ area ∈ image.text, area.stop ≤ UInt32.size) (kind : HookKind) (fault : HookError) :
    image.locateHook kind = .error fault ↔ fault = .notFound kind ∧
      ∀ area ∈ image.text, ∀ place, ¬ kind.EndsAt (image.sectionBytes area) place := by
  simp only [← hookIn?_eq_none_iff, ← List.findSome?_eq_none_iff]
  unfold locateHook
  cases search : image.text.findSome? (image.hookIn? kind) with
  | none => simp [eq_comm]
  | some found =>
    -- what was found has an address
    obtain ⟨area, offset, first, rfl⟩ := (findSome?_hookIn?_eq_some_iff laid kind found).mp search
    rw [first.inSection_eq laid (tops area first.listed)]
    simp

end Image

/-! ### Words that branch -/

/-- A word that is a branch but no plain one: a conditional branch to a fixed place, or a branch
through the link or the count register. -/
def IsConditionalBranch (word : UInt32) : Prop :=
  primaryOpcode word = 16 ∨
    primaryOpcode word = 19 ∧ (extendedOpcode word = 16 ∨ extendedOpcode word = 528)

theorem exists_decode?_of_isConditionalBranch {word : UInt32} (branches : IsConditionalBranch word) :
    ∃ instruction, Instruction.decode? word = some instruction ∧
      instruction.isConditional = true := by
  unfold Instruction.decode?
  obtain opcode | ⟨opcode, extended | extended⟩ := branches
  · rw [opcode]
    exact ⟨_, rfl, rfl⟩
  · rw [opcode, extended]
    exact ⟨_, rfl, rfl⟩
  · rw [opcode, extended]
    exact ⟨_, rfl, rfl⟩

theorem decode?_of_not_branch {word : UInt32} (plain : primaryOpcode word ≠ 18)
    (conditional : ¬ IsConditionalBranch word) :
    (Instruction.decode? word).filter (·.isBranch) = none := by
  have opcode {number : UInt32} (same : (primaryOpcode word).toNat = number.toNat) :
      primaryOpcode word = number := UInt32.toNat_inj.mp same
  have extended {number : UInt32} (same : (extendedOpcode word).toNat = number.toNat) :
      extendedOpcode word = number := UInt32.toNat_inj.mp same
  unfold Instruction.decode?
  dsimp only
  split
  next same => exact absurd (@opcode 18 same) plain
  next same => exact absurd (Or.inl (@opcode 16 same)) conditional
  next same =>
    split
    next inner => exact absurd (Or.inr ⟨@opcode 19 same, Or.inl (@extended 16 inner)⟩) conditional
    next inner => exact absurd (Or.inr ⟨@opcode 19 same, Or.inr (@extended 528 inner)⟩) conditional
    next => rfl
  all_goals rfl

/-! ### Hooks that are given -/

/-- What an edit answers, without the image. -/
def Edit.outcome (edit : Edit ε α) (image : Image) : Except ε α :=
  match edit image with
  | .ok value _ => .ok value
  | .error fault _ => .error fault

/-- What is to be said of an address that is given as a hook. -/
inductive HookVerdict (image : Image) (address : UInt32) : Except HookError UInt32 → Prop where
  | accepted {word : UInt32} (holds : image.HoldsWord address word)
      (movable : word = returnWord ∨ primaryOpcode word = 18) : HookVerdict image address (.ok word)
  | conditional {word : UInt32} (holds : image.HoldsWord address word) (other : word ≠ returnWord)
      (branches : IsConditionalBranch word) :
      HookVerdict image address (.error (.conditionalBranch address))
  | notReturn {word : UInt32} (holds : image.HoldsWord address word) (other : word ≠ returnWord)
      (plain : primaryOpcode word ≠ 18) (unconditional : ¬ IsConditionalBranch word) :
      HookVerdict image address (.error (.notReturn address word))
  | unmapped (outside : ∀ area ∈ image.sections, ¬ area.Contains address) :
      HookVerdict image address (.error (.image (.unmappedAddress address)))
  | overflow {area : Section} (member : area ∈ image.sections) (inside : area.Contains address)
      (cut : area.stop < address.toNat + 4) :
      HookVerdict image address (.error (.image (.sectionOverflow address 4 area.stop)))

namespace Image

theorem exists_hookVerdict (image : Image) (address : UInt32) :
    ∃ verdict, HookVerdict image address verdict := by
  classical
  by_cases mapped : ∃ area ∈ image.sections, area.Contains address
  · obtain ⟨area, member, inside⟩ := mapped
    by_cases fits : address.toNat + 4 ≤ area.stop
    · obtain ⟨word, holds⟩ : ∃ word, image.HoldsWord address word :=
        ⟨_, area, member, ⟨inside, fits⟩, rfl⟩
      by_cases movable : word = returnWord ∨ primaryOpcode word = 18
      · exact ⟨_, .accepted holds movable⟩
      · obtain ⟨other, plain⟩ := not_or.mp movable
        by_cases branches : IsConditionalBranch word
        · exact ⟨_, .conditional holds other branches⟩
        · exact ⟨_, .notReturn holds other plain branches⟩
    · exact ⟨_, .overflow member inside (Nat.lt_of_not_le fits)⟩
  · exact ⟨_, .unmapped fun area member inside => mapped ⟨area, member, inside⟩⟩

/-- What is said of a hook at which a word stands, in terms of how the word decodes. -/
theorem verifyHook_of_holdsWord {image : Image} (laid : image.IsLaidOut) {address word : UInt32}
    (holds : image.HoldsWord address word) :
    (verifyHook address).outcome image =
      if word = returnWord then .ok word
      else
        match (Instruction.decode? word).filter (·.isBranch) with
        | some instruction =>
          if instruction.isConditional then .error (.conditionalBranch address) else .ok word
        | none => .error (.notReturn address word) := by
  obtain ⟨cursor, read⟩ := readWord_at_of_holdsWord laid holds
  rw [Edit.outcome, verifyHook_apply, read]
  dsimp only
  by_cases returns : word = returnWord
  · rw [if_pos returns, if_pos returns]
  · -- the word is looked at a second time, from where the first look has left the cursor
    obtain ⟨moved, again⟩ := @readWord_at_of_holdsWord { image with cursor := cursor }
      ⟨laid.inFile, laid.apart, laid.slot_eq⟩ address word holds
    rw [if_neg returns, if_neg returns, branchAt_apply, again]
    dsimp only
    cases (Instruction.decode? word).filter (·.isBranch) with
    | none => rfl
    | some instruction =>
      dsimp only
      cases instruction.isConditional <;> rfl

theorem outcome_verifyHook_of_verdict {image : Image} (laid : image.IsLaidOut) {address : UInt32}
    {verdict : Except HookError UInt32} (due : HookVerdict image address verdict) :
    (verifyHook address).outcome image = verdict := by
  cases due with
  | @accepted word holds movable =>
    rw [verifyHook_of_holdsWord laid holds]
    split
    · rfl
    next other =>
      have opcode := movable.resolve_left other
      have decoded := (decode?_eq_branch_iff word _ _ _).mpr ⟨opcode, rfl, rfl, rfl⟩
      rw [decoded]
      rfl
  | conditional holds other branches =>
    obtain ⟨instruction, decoded, conditional⟩ := exists_decode?_of_isConditionalBranch branches
    have branch := instruction.isBranch_of_isConditional conditional
    rw [verifyHook_of_holdsWord laid holds, if_neg other, decoded,
      Option.filter_some_pos branch]
    exact if_pos conditional
  | notReturn holds other plain unconditional =>
    rw [verifyHook_of_holdsWord laid holds, if_neg other,
      decode?_of_not_branch plain unconditional]
  | unmapped outside =>
    have missing : image.sections.find? (·.Contains address) = none := by
      simpa using outside
    have refused : seek address image = .error (.unmappedAddress address) image := by
      rw [seek, resolve, missing]
    rw [Edit.outcome, verifyHook_apply, Edit.bind_apply, refused]
  | @overflow area member inside cut =>
    have found := (find?_contains_of_apart laid.apart address area).mpr ⟨member, inside⟩
    have refused : cursorOffset { image with cursor := ⟨address, some area⟩ } 4 =
        .error (.sectionOverflow address 4 area.stop) := by
      -- a word at an address ends in the wide space
      have bound := address.toNat_lt
      rw [cursorOffset_of_home rfl, if_neg (by dsimp only; unfold UInt64.size; omega), if_pos cut]
    rw [Edit.outcome, verifyHook_apply, Edit.bind_apply, seek, resolve, found]
    dsimp only
    rw [readWord, Edit.bind_apply, read, refused]

/-- An edit that changes nothing but the cursor, also where it fails. -/
def MovesOnly (edit : Edit ε α) : Prop :=
  ∀ image, ∃ cursor, edit.after image = { image with cursor := cursor }

theorem MovesOnly.pure (value : α) : MovesOnly (pure value : Edit ε α) :=
  fun image => ⟨image.cursor, rfl⟩

theorem MovesOnly.throw (fault : ε) : MovesOnly (throw fault : Edit ε α) :=
  fun image => ⟨image.cursor, rfl⟩

theorem MovesOnly.bind {first : Edit ε α} {next : α → Edit ε β} (one : MovesOnly first)
    (other : ∀ value, MovesOnly (next value)) : MovesOnly (first >>= next) := by
  intro image
  obtain ⟨cursor, step⟩ := one image
  rw [Edit.after, Edit.bind_apply]
  cases made : first image with
  | error fault middle =>
    rw [Edit.after_of_error made] at step
    exact ⟨cursor, step⟩
  | ok value middle =>
    rw [Edit.after_of_ok made] at step
    subst step
    exact other value _

theorem seek_movesOnly (address : UInt32) : MovesOnly (seek address) := by
  intro image
  cases made : seek address image with
  | ok value after =>
    obtain ⟨area, -, rfl⟩ := seek_eq_ok made
    exact ⟨_, Edit.after_of_ok made⟩
  | error fault after =>
    rw [Edit.after_of_error made, seek_eq_error made]
    exact ⟨image.cursor, rfl⟩

theorem readWord_movesOnly : MovesOnly readWord := by
  intro image
  cases made : readWord image with
  | ok word after =>
    obtain ⟨home, -, -, -, rfl⟩ := readWord_eq_ok made
    exact ⟨_, Edit.after_of_ok made⟩
  | error fault after =>
    rw [Edit.after_of_error made, readWord_eq_error made]
    exact ⟨image.cursor, rfl⟩

theorem branchAt_movesOnly (address : UInt32) : MovesOnly (branchAt address) := by
  refine (seek_movesOnly address).bind fun _ => readWord_movesOnly.bind fun word => ?_
  cases Instruction.decode? word with
  | none => exact MovesOnly.throw _
  | some instruction =>
    by_cases known : instruction.isBranch = true
    · simp only [if_pos known]
      exact MovesOnly.pure _
    · simp only [if_neg known]
      exact MovesOnly.throw _

theorem verifyHook_movesOnly (address : UInt32) : MovesOnly (verifyHook address) := by
  intro image
  have looked := (seek_movesOnly address).bind (fun _ => readWord_movesOnly) image
  rw [Edit.after, verifyHook_apply]
  cases read : (do let _ ← seek address; readWord : Edit ImageError UInt32) image with
  | error fault seen =>
    rw [Edit.after_of_error read] at looked
    exact looked
  | ok word seen =>
    rw [Edit.after_of_ok read] at looked
    obtain ⟨cursor, rfl⟩ := looked
    dsimp only
    by_cases returns : word = returnWord
    · rw [if_pos returns]
      exact ⟨cursor, rfl⟩
    · rw [if_neg returns]
      obtain ⟨moved, again⟩ := branchAt_movesOnly address { image with cursor := cursor }
      cases decoded : branchAt address { image with cursor := cursor } with
      | ok branch seen =>
        rw [Edit.after_of_ok decoded] at again
        subst again
        dsimp only
        cases branch.conditional <;> exact ⟨moved, rfl⟩
      | error fault seen =>
        rw [Edit.after_of_error decoded] at again
        subst again
        cases fault <;> exact ⟨moved, rfl⟩

/-! ### What is found and what is accepted -/

/-- In an image whose sections end in the address space, a hook is found exactly where the first
routine with a return ends, in the order of the text sections, and not found exactly if no text
section has one. The return can be read there and the address is accepted. Of an address that is given
the verdict follows from the word that stands there. Looking at an address moves the cursor and
changes nothing else. -/
theorem hook_sites_exact {start : Image} (made : start = empty ∨ ∃ bytes, ofBytes bytes = .ok start)
    (operations : List Operation)
    (ends : ∀ area ∈ (start.run operations).sections, area.stop ≤ UInt32.size) :
    (∀ kind site, (start.run operations).locateHook kind = .ok site ↔
      ∃ area offset, (start.run operations).IsFirstSite kind area offset ∧ site.slot = area.slot ∧
        site.address.toNat = area.loadAddress.toNat + offset) ∧
    (∀ kind fault, (start.run operations).locateHook kind = .error fault ↔
      fault = .notFound kind ∧ ∀ area ∈ (start.run operations).text, ∀ place,
        ¬ kind.EndsAt ((start.run operations).sectionBytes area) place) ∧
    (∀ kind site, (start.run operations).locateHook kind = .ok site →
      (∃ after, (do let _ ← seek site.address; readWord : Edit ImageError UInt32)
        (start.run operations) = .ok returnWord after) ∧
      (verifyHook site.address).outcome (start.run operations) = .ok returnWord) ∧
    (∀ address verdict, (verifyHook address).outcome (start.run operations) = verdict ↔
      HookVerdict (start.run operations) address verdict) ∧
    ∀ address, ∃ cursor, (verifyHook address).after (start.run operations) =
      { start.run operations with cursor := cursor } := by
  have laid := isLaidOut_run made operations
  generalize start.run operations = image at laid ends ⊢
  have top {area : Section} (listed : area ∈ image.text) : area.stop ≤ UInt32.size :=
    ends area (List.mem_append_left _ listed)
  refine ⟨?_, locateHook_eq_error_iff laid fun _ => top, ?_, ?_,
    fun address => verifyHook_movesOnly address image⟩
  · intro kind site
    rw [locateHook_eq_ok_iff laid fun _ => top]
    refine exists_congr fun area => exists_congr fun offset => and_congr_right fun found => ?_
    have reached := (found.holdsWord laid (top found.listed)).1
    constructor
    · rintro rfl
      exact ⟨rfl, reached⟩
    · obtain ⟨slot, address⟩ := site
      -- a number below the end of the address space is that of one address
      rintro ⟨rfl, same⟩
      rw [← reached] at same
      obtain rfl := UInt32.toNat_inj.mp same
      rfl
  · intro kind site located
    obtain ⟨area, offset, found, rfl⟩ :=
      (locateHook_eq_ok_iff laid (fun _ => top) kind site).mp located
    have holds := (found.holdsWord laid (top found.listed)).2
    obtain ⟨cursor, read⟩ := readWord_at_of_holdsWord laid holds
    exact ⟨⟨_, read⟩, outcome_verifyHook_of_verdict laid (.accepted holds (Or.inl rfl))⟩
  · intro address verdict
    constructor
    · rintro rfl
      obtain ⟨due, known⟩ := exists_hookVerdict image address
      rwa [outcome_verifyHook_of_verdict laid known]
    · exact outcome_verifyHook_of_verdict laid

/-- A routine of the newer console and its return, one byte behind the start of their section. -/
def routineArea : Section := ⟨.text, 0, 0x100, 0x80003100, 21⟩

def routineFile : Bytes :=
  Header.describe (List.replicate headerSize 0) routineArea ++
    [0x60, 0x3A, 0xB5, 0x00, 0x01, 0x3A, 0x73, 0x00, 0x0C, 0x2C, 0x15, 0x00, 0x04, 0x3B, 0x18,
      0x00, 0x0C] ++ wordBytes returnWord

def routineImage : Image :=
  ⟨routineFile.toArray, [routineArea], [], ⟨0x80003100, some routineArea⟩⟩

set_option maxRecDepth 4000 in
theorem ofBytes_routineFile : ofBytes routineFile = .ok routineImage := by rfl

theorem hook_sites_exact_routineImage :
    ofBytes routineFile = .ok routineImage ∧
    (∀ area ∈ routineImage.sections, area.stop ≤ UInt32.size) ∧
    routineImage.locateHook .controller = .ok ⟨0, 0x80003111⟩ ∧
    (verifyHook 0x80003111).outcome routineImage = .ok returnWord ∧
    HookVerdict routineImage 0x80003101 (.error (.notReturn 0x80003101 0x3AB50001)) ∧
    routineImage.locateHook .video = .error (.notFound .video) := by
  have ends : ∀ area ∈ routineImage.sections, area.stop ≤ UInt32.size := by decide +kernel
  have found : routineImage.locateHook .controller = .ok ⟨0, 0x80003111⟩ := by decide +kernel
  have missing : routineImage.locateHook .video = .error (.notFound .video) := by decide +kernel
  have seen : (verifyHook 0x80003101).outcome routineImage =
      .error (.notReturn 0x80003101 0x3AB50001) := by
    decide +kernel
  obtain ⟨-, -, accepted, verdict, -⟩ :=
    @hook_sites_exact routineImage (Or.inr ⟨routineFile, ofBytes_routineFile⟩) [] ends
  exact ⟨ofBytes_routineFile, ends, found, (accepted .controller _ found).2,
    (verdict _ _).mp seen, missing⟩

end Image

end CubePatch
