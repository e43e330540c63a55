import CubePatch.Payload.Hook
import CubePatch.Proofs.Image.Branch
import CubePatch.Proofs.Payload.Handler

/-!
What is known of a hook that was found or accepted: which word stands there, and that looking for it
changes nothing but the cursor.
-/
namespace CubePatch

/-- The return that ends a routine stands where it is found. -/
theorem HookKind.return?_eq_some {kind : HookKind} {code : Bytes} {offset : Nat}
    (found : kind.return? code = some offset) :
    offset + 4 ≤ code.length ∧ wordAt code offset = returnWord := by
  unfold return? at found
  split at found
  · cases found
  next start routine =>
    obtain ⟨index, hit, rfl⟩ := Option.map_eq_some_iff.mp found
    obtain ⟨inside, stands⟩ := findWord?_eq_some hit
    rw [List.length_drop] at inside
    refine ⟨by omega, ?_⟩
    rw [← stands, wordAt, wordAt, List.drop_drop]

/-- The branches that are always taken and name their target. -/
theorem Instruction.plain_iff (instruction : Instruction) :
    instruction.isBranch = true ∧ ¬ instruction.isConditional = true ↔
      ∃ displacement mode link, instruction = .branch displacement mode link := by
  cases instruction <;> simp [isBranch, isConditional]

namespace Image

/-- What the check of a given hook does, seen from the image. -/
theorem verifyHook_apply (address : UInt32) (image : Image) :
    verifyHook address image =
      match (do let _ ← seek address; readWord : Edit ImageError UInt32) image with
      | .error fault after => .error (.image fault) after
      | .ok word after =>
        if word = returnWord then .ok word after
        else
          match branchAt address after with
          | .ok branch after =>
            if branch.conditional then .error (.conditionalBranch address) after
            else .ok word after
          | .error (.notABranch address word) after => .error (.notReturn address word) after
          | .error fault after => .error (.image fault) after := by
  unfold verifyHook
  rw [Edit.bind_apply]
  unfold EStateM.adaptExcept
  cases (do let _ ← seek address; readWord : Edit ImageError UInt32) image with
  | error fault after => rfl
  | ok word after =>
    dsimp only
    by_cases returns : word = returnWord
    · rw [if_pos returns]
      exact congrFun (if_pos returns) after
    · rw [if_neg returns]
      exact congrFun (if_neg returns) after

/-- A hook that is accepted is a word of a section, and its word is given. -/
theorem verifyHook_eq_ok {image after : Image} {address word : UInt32}
    (run : verifyHook address image = .ok word after) :
    ∃ area cursor, image.sections.find? (·.Contains address) = some area ∧
      address.toNat + 4 ≤ area.stop ∧ word = wordAt image.bytes (area.placeOf address) ∧
      after = { image with cursor := cursor } := by
  rw [verifyHook_apply] at run
  split at run
  · cases run
  next stands seen reading =>
    -- a word other than the return is looked at once more, which moves the cursor again
    obtain ⟨area, cursor, inside, fits, known, rfl⟩ := readWord_at_eq_ok reading
    split at run
    · cases run
      exact ⟨area, cursor, inside, fits, known, rfl⟩
    · split at run
      next branch passed decoding =>
        obtain ⟨moved, rfl⟩ := branchAt_eq_ok decoding
        split at run
        · cases run
        · cases run
          exact ⟨area, moved, inside, fits, known, rfl⟩
      · cases run
      · cases run

/-- The check of a given hook accepts the word that stands there exactly if it can be carried out
elsewhere. -/
theorem verifyHook_eq_ok_iff (address word : UInt32) (image : Image) :
    (∃ after, verifyHook address image = .ok word after) ↔
      (∃ after, (do let _ ← seek address; readWord : Edit ImageError UInt32) image =
        .ok word after) ∧ Handler.IsMovable word := by
  rw [verifyHook_apply, Handler.isMovable_iff]
  cases reading : (do let _ ← seek address; readWord : Edit ImageError UInt32) image with
  | error fault after => simp
  | ok stands seen =>
    dsimp only
    by_cases returns : stands = returnWord
    · rw [if_pos returns]
      constructor
      · rintro ⟨after, accepted⟩
        cases accepted
        exact ⟨⟨_, rfl⟩, Or.inl returns⟩
      · rintro ⟨⟨after, same⟩, -⟩
        cases same
        exact ⟨_, rfl⟩
    · rw [if_neg returns]
      -- the second look at the word finds the same one
      obtain ⟨area, cursor, found, fits, known, rfl⟩ := readWord_at_eq_ok reading
      obtain ⟨seen, again⟩ : ∃ seen, (do let _ ← seek address; readWord : Edit ImageError UInt32)
          { image with cursor := cursor } = .ok stands seen := by
        rw [known]
        exact readWord_at_of_find? found fits
      rw [branchAt_apply, again]
      dsimp only
      constructor
      · rintro ⟨after, accepted⟩
        cases branch : (Instruction.decode? stands).filter (·.isBranch) with
        | none => rw [branch] at accepted; cases accepted
        | some instruction =>
          rw [branch] at accepted
          dsimp only at accepted
          split at accepted
          · cases accepted
          next unconditional =>
            cases accepted
            obtain ⟨decoded, branches⟩ := Option.filter_eq_some_iff.mp branch
            obtain ⟨displacement, mode, link, rfl⟩ :=
              (Instruction.plain_iff instruction).mp ⟨branches, unconditional⟩
            exact ⟨⟨_, rfl⟩, Or.inr ⟨displacement, mode, link, decoded⟩⟩
      · rintro ⟨⟨after, taken⟩, movable⟩
        cases taken
        obtain same | ⟨displacement, mode, link, decoded⟩ := movable
        · exact absurd same returns
        · rw [decoded]
          exact ⟨seen, rfl⟩

/-- A word stands at an address if its four bytes lie in one section, as bytes of that section. -/
def HoldsWord (image : Image) (address word : UInt32) : Prop :=
  ∃ area ∈ image.sections, area.Holds address 4 ∧
    wordAt (image.sectionBytes area) (address.toNat - area.loadAddress.toNat) = word

theorem wordAt_sectionBytes {image : Image} {area : Section} {address : UInt32}
    (held : area.Holds address 4) :
    wordAt (image.sectionBytes area) (address.toNat - area.loadAddress.toNat) =
      wordAt image.bytes (area.placeOf address) := by
  have place := Section.placeOf_eq held.1
  have lower := held.1.1
  have upper := held.2
  unfold Section.stop at upper
  rw [sectionBytes_eq, wordAt_slice_of_inside (by omega)]
  congr 1
  omega

/-- The return behind a routine stands at its address. The sum is the address itself, as a section
that ends in the address space does not wrap. -/
theorem holdsWord_of_return? {image : Image} {area : Section} (listed : area ∈ image.sections)
    (whole : area.fileStop ≤ image.bytes.length) (top : area.stop ≤ UInt32.size) {kind : HookKind}
    {offset : Nat} (found : kind.return? (image.sectionBytes area) = some offset) :
    (area.loadAddress + UInt32.ofNat offset).toNat = area.loadAddress.toNat + offset ∧
      image.HoldsWord (area.loadAddress + UInt32.ofNat offset) returnWord := by
  obtain ⟨inside, word⟩ := HookKind.return?_eq_some found
  unfold Section.fileStop at whole
  rw [sectionBytes_eq, length_slice whole] at inside
  have reached : (area.loadAddress + UInt32.ofNat offset).toNat =
      area.loadAddress.toNat + offset := by
    unfold Section.stop at top
    rw [UInt32.toNat_add, UInt32.toNat_ofNat']
    simp only [UInt32.size] at top
    omega
  refine ⟨reached, area, listed, ?_, ?_⟩
  · simp only [Section.Holds, Section.Contains, Section.stop, reached]
    omega
  · rw [reached, Nat.add_sub_cancel_left, word]

theorem inSection_eq_ok {area : Section} {offset : Nat} {site : HookSite}
    (made : HookSite.inSection area offset = .ok site) :
    site = ⟨area.slot, area.loadAddress + UInt32.ofNat offset⟩ := by
  unfold HookSite.inSection at made
  split at made
  next address sum =>
    unfold checkedSum at sum
    split at sum <;> cases sum
    cases made
    rfl
  · cases made

/-- A hook that was located is a return of a section, if the section ends in the address space. -/
theorem locateHook_eq_ok {image : Image} (sound : image.WellFormed)
    (ends : ∀ area ∈ image.sections, area.stop ≤ UInt32.size) {kind : HookKind} {site : HookSite}
    (located : image.locateHook kind = .ok site) :
    ∃ area ∈ image.sections, area.Holds site.address 4 ∧
      wordAt image.bytes (area.placeOf site.address) = returnWord := by
  unfold locateHook at located
  split at located
  next found search =>
    subst located
    obtain ⟨area, member, hit⟩ := List.exists_of_findSome?_eq_some search
    obtain ⟨offset, stands, made⟩ := Option.map_eq_some_iff.mp hit
    obtain rfl := inSection_eq_ok made
    have listed : area ∈ image.sections := List.mem_append_left _ member
    obtain ⟨-, other, inside, held, word⟩ :=
      holdsWord_of_return? listed (sound.inFile area listed) (ends area listed) stands
    exact ⟨other, inside, held, (wordAt_sectionBytes held).symm.trans word⟩
  · cases located

end Image

end CubePatch
