import CubePatch.Instruction.Encoding
import CubePatch.Proofs.Word

/-!
Branches as they are written and as they are read.

A branch word keeps the way to its target in part: whole instructions of it, and of these 26 bits
with a sign. A branch that was written leads to its target exactly if nothing of the way is lost.
-/
namespace CubePatch

/-- Where a branch leads that stands at `source` and was written for `target`. -/
def landing (source target : UInt32) : UInt32 :=
  source + UInt32.ofInt (Int.bmod ((target - source).toNat / 4 * 4 : Nat) (2 ^ 26))

/-- The way to `target` is made of whole instructions and stays within 32 MiB. -/
def Reaches (source target : UInt32) : Prop :=
  4 ∣ (target - source).toInt32.toInt ∧ -2 ^ 25 ≤ (target - source).toInt32.toInt ∧
    (target - source).toInt32.toInt < 2 ^ 25

instance (source target : UInt32) : Decidable (Reaches source target) :=
  inferInstanceAs (Decidable (_ ∧ _ ∧ _))

/-- A word that is always taken as a branch to `target`, without a way back, where it stands at
`source`. -/
def LeadsTo (word source target : UInt32) : Prop :=
  ∃ displacement mode, Instruction.decode? word = some (.branch displacement mode false) ∧
    Instruction.targetFrom source mode displacement = target

theorem leadsTo_iff_any (word source target : UInt32) :
    LeadsTo word source target ↔
      ((Instruction.decode? word).any fun
        | .branch displacement mode false =>
          Instruction.targetFrom source mode displacement = target
        | _ => false) = true := by
  rw [Option.any_eq_true]
  constructor
  · rintro ⟨displacement, mode, decoded, leads⟩
    exact ⟨_, decoded, decide_eq_true leads⟩
  · rintro ⟨instruction, decoded, leads⟩
    cases instruction with
    | branch displacement mode link =>
      cases link with
      | false => exact ⟨displacement, mode, decoded, of_decide_eq_true leads⟩
      | true => cases leads
    | _ => cases leads

instance (word source target : UInt32) : Decidable (LeadsTo word source target) :=
  decidable_of_iff _ (leadsTo_iff_any word source target).symm

/-- What a branch keeps of a way: whole instructions, and 26 bits of it. -/
theorem toNat_keptWay (way : UInt32) :
    (way &&& 0x03FFFFFC).toNat = way.toNat / 4 % 2 ^ 24 * 4 := by
  have mask : (0x03FFFFFC : UInt32) = fieldMask 6 29 := by decide
  rw [mask]
  exact toNat_and_fieldMask way (by decide) (by decide)

theorem toNat_branchWord (source target : UInt32) (link : Bool) :
    (branchWord source target link).toNat =
      0x48000000 + (target - source).toNat / 4 % 2 ^ 24 * 4 + link.toNat := by
  have linked : (if link then 1 else 0 : UInt32).toNat = link.toNat := by cases link <;> rfl
  rw [branchWord, UInt32.toNat_or, UInt32.toNat_or, toNat_keptWay, linked]
  have small := Nat.mod_lt ((target - source).toNat / 4) (Nat.two_pow_pos 24)
  generalize (target - source).toNat / 4 % 2 ^ 24 = steps at small ⊢
  have bit : link.toNat < 2 ^ 2 := by cases link <;> decide
  -- opcode, way and link bit share no bit of the word, so each union is a sum
  have joined : steps * 4 ||| (0x48000000 : UInt32).toNat = (18 * 2 ^ 24 + steps) <<< 2 := by
    have inside : steps * 4 < 2 ^ 26 := by omega
    have sum := Nat.shiftLeft_add_eq_or_of_lt inside 18
    rw [Nat.shiftLeft_eq] at sum ⊢
    rw [Nat.or_comm]
    exact sum.symm.trans (by omega)
  rw [joined, ← Nat.shiftLeft_add_eq_or_of_lt bit, Nat.shiftLeft_eq]
  omega

theorem ofInt_toInt (number : Int32) : UInt32.ofInt number.toInt = number.toUInt32 := by
  apply UInt32.toNat_inj.mp
  have small := number.toUInt32.toNat_lt
  have value : number.toInt = Int.bmod number.toUInt32.toNat (2 ^ 32) :=
    BitVec.toInt_eq_toNat_bmod number.toBitVec
  -- taking the sign off again only needs that both are the same up to whole turns
  have residue : Int.bmod number.toUInt32.toNat (2 ^ 32) % (2 ^ 32 : Nat) =
      number.toUInt32.toNat % (2 ^ 32 : Nat) := Int.bmod_emod
  rw [value, UInt32.ofInt, UInt32.toNat_ofNat']
  omega

theorem toInt_shiftLeft_two (number : Int32) :
    (number <<< 2).toInt = Int.bmod (number.toInt * 4) (2 ^ 32) := by
  have count : ((2 : Int32).toBitVec.smod 32).toNat = 2 := by decide
  have value : number.toInt = Int.bmod number.toBitVec.toNat (2 ^ 32) :=
    BitVec.toInt_eq_toNat_bmod number.toBitVec
  rw [value, Int.bmod_mul_bmod, ← Int32.toInt_toBitVec, Int32.toBitVec_shiftLeft,
    BitVec.shiftLeft_eq', count, BitVec.toInt_shiftLeft, Nat.shiftLeft_eq]
  rfl

/-! ### Numbers with a sign -/

private theorem bmod_steps (steps : Nat) :
    Int.bmod (steps % 2 ^ 24 : Nat) (2 ^ 24) * 4 = Int.bmod (steps * 4 : Nat) (2 ^ 26) := by
  simp only [Int.bmod_def, Nat.reducePow, Int.cast_ofNat_Int]
  omega

/-- With its sign a way of 26 bits is the same whether its upper bits are there or not. -/
private theorem bmod_keptWay (way : Nat) :
    Int.bmod (way / 4 % 2 ^ 24 * 4 : Nat) (2 ^ 26) = Int.bmod (way / 4 * 4 : Nat) (2 ^ 26) := by
  rw [← bmod_steps, ← bmod_steps, Nat.mod_mod]

/-- A number of 26 bits with a sign is not reduced in a word. -/
private theorem bmod_word_bmod (number : Int) :
    Int.bmod (Int.bmod number (2 ^ 26)) (2 ^ 32) = Int.bmod number (2 ^ 26) := by
  have lower : -2 ^ 25 ≤ Int.bmod number (2 ^ 26) := Int.le_bmod (by decide)
  have upper : Int.bmod number (2 ^ 26) < 2 ^ 25 := Int.bmod_lt (by decide)
  apply Int.bmod_eq_of_le
  · omega
  · omega

/-- Nothing of a way is lost exactly if it is a number of whole instructions that fits. -/
private theorem kept_eq_iff {way : Nat} (small : way < 2 ^ 32) :
    (Int.bmod (way / 4 * 4 : Nat) (2 ^ 26) % 2 ^ 32).toNat % 2 ^ 32 = way ↔
      4 ∣ Int.bmod way (2 ^ 32) ∧ -2 ^ 25 ≤ Int.bmod way (2 ^ 32) ∧
        Int.bmod way (2 ^ 32) < 2 ^ 25 := by
  have signed : Int.bmod way (2 ^ 32) = if way < 2 ^ 31 then (way : Int) else way - 2 ^ 32 := by
    simp only [Int.bmod_def, Nat.reducePow, Int.cast_ofNat_Int]
    omega
  have lower : -2 ^ 25 ≤ Int.bmod (way / 4 * 4 : Nat) (2 ^ 26) := Int.le_bmod (by decide)
  have upper : Int.bmod (way / 4 * 4 : Nat) (2 ^ 26) < 2 ^ 25 := Int.bmod_lt (by decide)
  -- what is kept differs from the way by a multiple of four and whole turns, and is near zero
  have turns := Int.bmod_add_bdiv (way / 4 * 4 : Nat) (2 ^ 26)
  rw [signed]
  generalize Int.bmod (way / 4 * 4 : Nat) (2 ^ 26) = kept at lower upper turns ⊢
  omega

/-! ### The fields of a plain branch -/

/-- A plain branch is known by its opcode alone; the rest of the word is its way and two flags. -/
theorem decode?_eq_branch_iff (word : UInt32) (displacement : Int32) (mode : AddressMode)
    (link : Bool) :
    Instruction.decode? word = some (.branch displacement mode link) ↔
      primaryOpcode word = 18 ∧ signedField word 6 29 <<< 2 = displacement ∧
        (if isSet word 30 then .absolute else .relative) = mode ∧ isSet word 31 = link := by
  have number : primaryOpcode word = 18 ↔ (primaryOpcode word).toNat = 18 := by
    rw [← UInt32.toNat_inj]
    rfl
  rw [number]
  constructor
  · intro decoded
    unfold Instruction.decode? at decoded
    dsimp only at decoded
    -- every other opcode is decoded as another instruction or not at all
    split at decoded
    case h_1 opcode =>
      simp only [Option.some.injEq, Instruction.branch.injEq] at decoded
      exact ⟨opcode, decoded⟩
    case h_3 => split at decoded <;> cases decoded
    all_goals cases decoded
  · rintro ⟨opcode, rfl, rfl, rfl⟩
    simp only [Instruction.decode?, opcode]
    rfl

/-- The displacement of a plain branch is its field with the sign, in bytes. -/
theorem toInt_displacement (word : UInt32) :
    (signedField word 6 29 <<< 2).toInt =
      Int.bmod ((field word 6 29).toNat * 4 : Nat) (2 ^ 26) := by
  have small : (field word 6 29).toNat % 2 ^ 24 = (field word 6 29).toNat :=
    Nat.mod_eq_of_lt (toNat_field_lt word (by decide) (by decide))
  rw [toInt_shiftLeft_two, toInt_signedField word (by decide) (by decide), ← small, bmod_steps,
    bmod_word_bmod, small]

/-- The parts of a plain branch make up its whole word. -/
theorem toNat_of_branch {word : UInt32} (opcode : primaryOpcode word = 18)
    (relative : isSet word 30 = false) :
    word.toNat = 0x48000000 + (field word 6 29).toNat * 4 + (isSet word 31).toNat := by
  have small := word.toNat_lt
  have upper : word.toNat / 2 ^ 26 = 18 := by
    rw [← toNat_primaryOpcode, opcode]
    rfl
  have way : (field word 6 29).toNat = word.toNat / 2 ^ 2 % 2 ^ 24 :=
    toNat_field word (by decide) (by decide)
  have clear : ¬ word.toNat / 2 ^ 1 % 2 = 1 := by
    rw [← isSet_iff word (show 30 ≤ 31 by decide), relative]
    exact Bool.false_ne_true
  have linked : isSet word 31 = true ↔ word.toNat / 2 ^ 0 % 2 = 1 :=
    isSet_iff word (by decide)
  cases flag : isSet word 31 with
  | false =>
    rw [flag, iff_comm, iff_false_right Bool.false_ne_true] at linked
    rw [Bool.toNat_false]
    omega
  | true =>
    rw [flag, iff_comm, iff_true_right rfl] at linked
    rw [Bool.toNat_true]
    omega

/-! ### Reading and aiming -/

theorem decode?_branchWord (source target : UInt32) (link : Bool) :
    ∃ displacement, Instruction.decode? (branchWord source target link) =
        some (.branch displacement .relative link) ∧
      Instruction.targetFrom source .relative displacement = landing source target := by
  have value := toNat_branchWord source target link
  have bit : link.toNat < 2 := Bool.toNat_lt link
  have small := Nat.mod_lt ((target - source).toNat / 4) (Nat.two_pow_pos 24)
  -- from here on the word is the number it stands for, of which each field takes its part
  generalize branchWord source target link = word at value ⊢
  have opcode : primaryOpcode word = 18 := by
    apply UInt32.toNat_inj.mp
    have number : (18 : UInt32).toNat = 18 := rfl
    rw [toNat_primaryOpcode, value, number]
    omega
  have relative : isSet word 30 = false := by
    rw [Bool.eq_false_iff, ne_eq, isSet_iff word (by decide), value]
    omega
  have linked : isSet word 31 = link := by
    rw [Bool.eq_iff_iff, isSet_iff word (by decide), value]
    cases link <;> simp <;> omega
  have way : (field word 6 29).toNat = (target - source).toNat / 4 % 2 ^ 24 := by
    rw [toNat_field word (by decide) (by decide), value]
    omega
  refine ⟨signedField word 6 29 <<< 2, ?_, ?_⟩
  · rw [decode?_eq_branch_iff, relative]
    exact ⟨opcode, rfl, rfl, linked⟩
  · rw [Instruction.targetFrom, landing, ← ofInt_toInt, toInt_displacement, way, bmod_keptWay]

/-- A branch leads as far as the kept part of the way says, taken with its sign. -/
theorem landing_eq (source target : UInt32) :
    landing source target =
      source + UInt32.ofInt (Int.bmod ((target - source) &&& 0x03FFFFFC).toNat (2 ^ 26)) := by
  rw [landing, toNat_keptWay, bmod_keptWay]

/-- A relative branch is written again for where it leads, from wherever it is read. -/
theorem branchWord_of_branch {word : UInt32} (opcode : primaryOpcode word = 18)
    (relative : isSet word 30 = false) (source : UInt32) :
    branchWord source (Instruction.targetFrom source .relative (signedField word 6 29 <<< 2))
      (isSet word 31) = word := by
  have narrow : (field word 6 29).toNat < 2 ^ 24 := toNat_field_lt word (by decide) (by decide)
  -- the way of the branch as a word is the field up to whole turns of 26 bits
  have way : (signedField word 6 29 <<< 2).toUInt32.toNat / 4 % 2 ^ 24 =
      (field word 6 29).toNat := by
    have value := toInt_displacement word
    rw [← ofInt_toInt, value, UInt32.ofInt, UInt32.toNat_ofNat']
    generalize (field word 6 29).toNat = steps at narrow ⊢
    simp only [Int.bmod_def, Nat.reducePow, Int.cast_ofNat_Int]
    omega
  have moved : Instruction.targetFrom source .relative (signedField word 6 29 <<< 2) - source =
      (signedField word 6 29 <<< 2).toUInt32 := by
    rw [Instruction.targetFrom, UInt32.add_comm, UInt32.add_sub_cancel]
  apply UInt32.toNat_inj.mp
  rw [toNat_branchWord, moved, way, ← toNat_of_branch opcode relative]

/-- A branch reaches its target exactly if nothing of the way is lost. -/
theorem landing_eq_iff (source target : UInt32) :
    landing source target = target ↔ Reaches source target := by
  have signed : (target - source).toInt32.toInt = Int.bmod (target - source).toNat (2 ^ 32) :=
    BitVec.toInt_eq_toNat_bmod (target - source).toBitVec
  have moved : landing source target = target ↔
      UInt32.ofInt (Int.bmod ((target - source).toNat / 4 * 4 : Nat) (2 ^ 26)) =
        target - source := by
    rw [landing, UInt32.add_comm]
    generalize UInt32.ofInt (Int.bmod ((target - source).toNat / 4 * 4 : Nat) (2 ^ 26)) = kept
    constructor
    · intro reached
      rw [← reached, UInt32.add_sub_cancel]
    · intro whole
      rw [whole, UInt32.sub_add_cancel]
  rw [moved, Reaches, signed, ← UInt32.toNat_inj, UInt32.ofInt, UInt32.toNat_ofNat']
  exact kept_eq_iff (target - source).toNat_lt

theorem leadsTo_branchWord (source target : UInt32) :
    LeadsTo (branchWord source target false) source (landing source target) := by
  obtain ⟨displacement, decoded, leads⟩ := decode?_branchWord source target false
  exact ⟨displacement, .relative, decoded, leads⟩

theorem LeadsTo.unique {word source first second : UInt32} (one : LeadsTo word source first)
    (other : LeadsTo word source second) : first = second := by
  obtain ⟨displacement, mode, decoded, rfl⟩ := one
  obtain ⟨displacement', mode', decoded', rfl⟩ := other
  rw [decoded, Option.some.injEq, Instruction.branch.injEq] at decoded'
  obtain ⟨rfl, rfl, -⟩ := decoded'
  rfl

/-- A word that is a branch for `target`: it leads to the landing, and this is the target exactly if
the way fits into the word. -/
def AimsAt (word source target : UInt32) : Prop :=
  LeadsTo word source (landing source target) ∧
    (LeadsTo word source target ↔ Reaches source target)

theorem aimsAt_branchWord (source target : UInt32) :
    AimsAt (branchWord source target false) source target := by
  have leads := leadsTo_branchWord source target
  refine ⟨leads, ?_⟩
  rw [← landing_eq_iff]
  constructor
  · exact leads.unique
  · intro reached
    rwa [reached] at leads

end CubePatch
