import CubePatch.Proofs.Image.Run
import CubePatch.Proofs.Instruction

/-!
Branches written into an image and read from it.

Writing a branch and reading it are two independent pieces: one masks the way to the target into a
word, the other takes the fields of a word apart and gives the way its sign. On words they undo each
other as far as a word has room for the way, and so they do at any address of an image that has a
whole word of its section left.

## Main result

`branch_round_trip`, for words and for images.
-/
namespace CubePatch.Image

/-- What decoding the branch at an address does, seen from the image. -/
theorem branchAt_apply (address : UInt32) (image : Image) :
    branchAt address image =
      match (do let _ ← seek address; readWord : Edit ImageError UInt32) image with
      | .error fault after => .error fault after
      | .ok word after =>
        match (Instruction.decode? word).filter (·.isBranch) with
        | some instruction => .ok ⟨instruction.target? address, instruction.isConditional⟩ after
        | none => .error (.notABranch address word) after := by
  have split_off : branchAt address =
      ((do let _ ← seek address; readWord : Edit ImageError UInt32) >>= fun word =>
        match Instruction.decode? word with
        | some instruction =>
          if instruction.isBranch then
            return ⟨instruction.target? address, instruction.isConditional⟩
          else throw (.notABranch address word)
        | none => throw (.notABranch address word)) := by
    unfold branchAt
    exact (bind_assoc _ _ _).symm
  rw [split_off, Edit.bind_apply]
  cases (do let _ ← seek address; readWord : Edit ImageError UInt32) image with
  | error fault after => rfl
  | ok word after =>
    dsimp only
    cases Instruction.decode? word with
    | none => rfl
    | some instruction =>
      dsimp only
      cases known : instruction.isBranch <;> simp only [Option.filter, known] <;> rfl

theorem branchAt_eq_ok {image after : Image} {address : UInt32} {branch : BranchInfo}
    (run : branchAt address image = .ok branch after) :
    ∃ cursor, after = { image with cursor := cursor } := by
  rw [branchAt_apply] at run
  split at run
  · cases run
  next word seen reading =>
    obtain ⟨area, cursor, -, -, -, rfl⟩ := readWord_at_eq_ok reading
    split at run <;> cases run
    exact ⟨cursor, rfl⟩

/-- A branch is inserted at every address with a word of its section left. -/
theorem insertBranch_of_resolve {image : Image} {source : UInt32} {area : Section}
    (mapped : image.resolve source = .ok area) (fits : source.toNat + 4 ≤ area.stop)
    (target : UInt32) (link : Bool) :
    insertBranch target source link image =
      .ok () (image.written area source (wordBytes (branchWord source target link))) :=
  write_at_of_find? (find?_of_resolve mapped) fits

/-- A branch that was inserted is read back with the target it has room for. -/
theorem branchAt_of_written {image : Image} {source : UInt32} {area : Section}
    (mapped : image.resolve source = .ok area) (fits : source.toNat + 4 ≤ area.stop)
    (whole : area.fileStop ≤ image.bytes.length) (target : UInt32) (link : Bool) :
    ∃ seen, branchAt source (image.written area source
        (wordBytes (branchWord source target link))) =
      .ok ⟨some (landing source target), false⟩ seen := by
  obtain ⟨displacement, decoded, leads⟩ := decode?_branchWord source target link
  generalize branchWord source target link = word at decoded ⊢
  have found := find?_of_resolve mapped
  have held : area.Holds source 4 := ⟨by simpa using List.find?_some found, fits⟩
  have place := Section.placeOf_add_le held
  have stands : wordAt (image.written area source (wordBytes word)).bytes
      (area.placeOf source) = word := by
    rw [bytes_written]
    exact wordAt_of_slice (slice_overwrite_self (Nat.le_trans place whole))
  have again : (image.written area source (wordBytes word)).sections.find? (·.Contains source) =
      some area := by
    rw [sections_written]
    exact found
  obtain ⟨seen, reading⟩ := readWord_at_of_find? again fits
  refine ⟨seen, ?_⟩
  rw [branchAt_apply, reading, stands]
  dsimp only
  rw [decoded, ← leads]
  rfl

/-- A branch that is written is read as a relative one with its link bit, and leads to its target
exactly if the way to it is made of whole instructions and fits. A relative branch that is read and
written again is the same word. What an image gives for a branch that was inserted at a mapped
address is what the word gives. -/
theorem branch_round_trip :
    (∀ source target link, ∃ displacement,
      Instruction.decode? (branchWord source target link) =
        some (.branch displacement .relative link) ∧
      (Instruction.branch displacement .relative link).target? source =
        some (landing source target) ∧
      landing source target =
        source + UInt32.ofInt (Int.bmod ((target - source) &&& 0x03FFFFFC).toNat (2 ^ 26)) ∧
      (landing source target = target ↔ Reaches source target)) ∧
    (∀ word, primaryOpcode word = 18 → isSet word 30 = false → ∃ branch,
      Instruction.decode? word = some branch ∧
      ∀ source, ∃ target, branch.target? source = some target ∧
        branchWord source target (isSet word 31) = word) ∧
    ∀ start : Image, (start = empty ∨ ∃ bytes, ofBytes bytes = .ok start) →
      ∀ operations source area, (start.run operations).resolve source = .ok area →
      source.toNat + 4 ≤ area.stop → ∀ target link, ∃ written seen,
        insertBranch target source link (start.run operations) = .ok () written ∧
        branchAt source written = .ok ⟨some (landing source target), false⟩ seen := by
  refine ⟨?_, ?_, ?_⟩
  · intro source target link
    obtain ⟨displacement, decoded, leads⟩ := decode?_branchWord source target link
    exact ⟨displacement, decoded, congrArg some leads, landing_eq source target,
      landing_eq_iff source target⟩
  · intro word opcode relative
    refine ⟨.branch (signedField word 6 29 <<< 2) .relative (isSet word 31), ?_, ?_⟩
    · rw [decode?_eq_branch_iff, relative]
      exact ⟨opcode, rfl, rfl, rfl⟩
    · exact fun source => ⟨_, rfl, branchWord_of_branch opcode relative source⟩
  · intro start made operations source area mapped fits target link
    have member := List.mem_of_find?_eq_some (find?_of_resolve mapped)
    have whole := inFile_run made operations area member
    obtain ⟨seen, read⟩ := branchAt_of_written mapped fits whole target link
    exact ⟨_, seen, insertBranch_of_resolve mapped fits target link, read⟩

/-- The reach ends one instruction earlier forwards than backwards. -/
example : Reaches 0x82000000 0x80000000 ∧ ¬ Reaches 0x80000000 0x82000000 := by decide

end CubePatch.Image
