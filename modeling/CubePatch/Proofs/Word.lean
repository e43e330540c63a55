import CubePatch.Word
import Mathlib.Algebra.Group.Int.Defs
import Mathlib.Algebra.Group.Nat.Defs

/-!
The fields of a word as numbers.

A field is the quotient of the word by a power of two, reduced to the width of the field. With its
sign it is the same number, balanced around zero.
-/
namespace CubePatch

/-- What is left of a word of ones when some of them are shifted out. -/
private theorem ones_div (kept lost : Nat) : (2 ^ (kept + lost) - 1) / 2 ^ lost = 2 ^ kept - 1 := by
  have some_kept := Nat.two_pow_pos kept
  have some_lost := Nat.two_pow_pos lost
  rw [Nat.pow_add]
  apply Nat.div_eq_of_lt_le
  · rw [Nat.sub_mul]
    omega
  · rw [Nat.sub_add_cancel some_kept]
    have := Nat.mul_pos some_kept some_lost
    omega

private theorem toNat_count {count : Nat} (small : count ≤ 31) :
    (UInt32.ofNat count).toNat % 32 = count := by
  rw [UInt32.toNat_ofNat']
  omega

theorem toNat_fieldMask {first last : Nat} (order : first ≤ last) (inside : last ≤ 31) :
    (fieldMask first last).toNat = (2 ^ (last - first + 1) - 1) * 2 ^ (31 - last) := by
  have ones : (0xFFFFFFFF : UInt32).toNat = 2 ^ (last - first + 1 + (first + (31 - last))) - 1 := by
    have width : last - first + 1 + (first + (31 - last)) = 32 := by omega
    rw [width]
    rfl
  -- the ones stay inside of the word, so none of them is lost when they are shifted into place
  have bound : (2 ^ (last - first + 1) - 1) * 2 ^ (31 - last) < 2 ^ 32 := by
    have some_ones := Nat.two_pow_pos (last - first + 1)
    calc (2 ^ (last - first + 1) - 1) * 2 ^ (31 - last)
        < 2 ^ (last - first + 1) * 2 ^ (31 - last) :=
          Nat.mul_lt_mul_of_pos_right (by omega) (Nat.two_pow_pos _)
      _ ≤ 2 ^ 32 := by
          rw [← Nat.pow_add]
          exact Nat.pow_le_pow_right (by decide) (by omega)
  rw [fieldMask, UInt32.toNat_shiftLeft, UInt32.toNat_shiftRight, toNat_count (by omega),
    toNat_count (by omega), ones, Nat.shiftRight_eq_div_pow, Nat.shiftLeft_eq, ones_div,
    Nat.mod_eq_of_lt bound]

/-- What a mask leaves of a word, in its place. -/
theorem toNat_and_fieldMask (word : UInt32) {first last : Nat} (order : first ≤ last)
    (inside : last ≤ 31) :
    (word &&& fieldMask first last).toNat =
      word.toNat / 2 ^ (31 - last) % 2 ^ (last - first + 1) * 2 ^ (31 - last) := by
  rw [UInt32.toNat_and, toNat_fieldMask order inside, ← Nat.and_two_pow_sub_one_eq_mod]
  apply Nat.eq_of_testBit_eq
  intro place
  rw [Nat.testBit_and, Nat.testBit_mul_two_pow, Nat.testBit_mul_two_pow, Nat.testBit_and,
    Nat.testBit_div_two_pow]
  by_cases kept : 31 - last ≤ place
  · rw [Nat.sub_add_cancel kept, decide_eq_true kept, Bool.true_and, Bool.true_and]
  · rw [decide_eq_false kept, Bool.false_and, Bool.and_false, Bool.false_and]

theorem toNat_field (word : UInt32) {first last : Nat} (order : first ≤ last)
    (inside : last ≤ 31) :
    (field word first last).toNat = word.toNat / 2 ^ (31 - last) % 2 ^ (last - first + 1) := by
  rw [field, UInt32.toNat_shiftRight, toNat_count (by omega), toNat_and_fieldMask word order inside,
    Nat.shiftRight_eq_div_pow, Nat.mul_div_cancel _ (Nat.two_pow_pos _)]

theorem toNat_field_lt (word : UInt32) {first last : Nat} (order : first ≤ last)
    (inside : last ≤ 31) : (field word first last).toNat < 2 ^ (last - first + 1) := by
  rw [toNat_field word order inside]
  exact Nat.mod_lt _ (Nat.two_pow_pos _)

theorem toNat_primaryOpcode (word : UInt32) : (primaryOpcode word).toNat = word.toNat / 2 ^ 26 := by
  rw [primaryOpcode, UInt32.toNat_shiftRight, Nat.shiftRight_eq_div_pow]
  rfl

theorem bitAt_eq (word : UInt32) {bit : Nat} (inside : bit ≤ 31) :
    bitAt word bit = word &&& fieldMask bit bit := by
  have mask : (1 : UInt32) <<< UInt32.ofNat (31 - bit) = fieldMask bit bit := by
    have bound : 2 ^ (31 - bit) < 2 ^ 32 := Nat.pow_lt_pow_right (by decide) (by omega)
    apply UInt32.toNat_inj.mp
    rw [toNat_fieldMask (Nat.le_refl bit) inside, UInt32.toNat_shiftLeft, toNat_count (by omega),
      UInt32.toNat_one, Nat.shiftLeft_eq, Nat.one_mul, Nat.mod_eq_of_lt bound, Nat.sub_self]
    exact (Nat.one_mul _).symm
  rw [bitAt, mask]

/-- A bit that is set is a field of its own that holds one. -/
theorem isSet_iff (word : UInt32) {bit : Nat} (inside : bit ≤ 31) :
    isSet word bit = true ↔ word.toNat / 2 ^ (31 - bit) % 2 = 1 := by
  rw [isSet, bitAt_eq word inside, bne_iff_ne, ne_eq, ← UInt32.toNat_inj, UInt32.toNat_zero,
    toNat_and_fieldMask word (Nat.le_refl bit) inside, Nat.mul_eq_zero, Nat.sub_self]
  have place := Nat.two_pow_pos (31 - bit)
  omega

/-- Shifting a number up to the sign bit and down again spreads its highest bit. -/
private theorem bmod_mul_div {value half scale : Nat} (small : value < 2 * half)
    (positive : 0 < scale) :
    Int.bmod (value * scale : Nat) (2 * half * scale) / scale = Int.bmod value (2 * half) := by
  have whole : value * scale < 2 * half * scale := Nat.mul_lt_mul_of_pos_right small positive
  rw [Int.bmod_def, Int.bmod_def, ← Int.natCast_emod, ← Int.natCast_emod,
    Nat.mod_eq_of_lt small, Nat.mod_eq_of_lt whole]
  have middle : (((2 * half * scale : Nat) : Int) + 1) / 2 = half * scale := by
    rw [Nat.mul_assoc]
    push_cast
    omega
  have centre : (((2 * half : Nat) : Int) + 1) / 2 = half := by omega
  rw [middle, centre]
  by_cases lower : value < half
  · have below : value * scale < half * scale := Nat.mul_lt_mul_of_pos_right lower positive
    rw [if_pos (by exact_mod_cast below), if_pos (by exact_mod_cast lower)]
    push_cast
    exact Int.mul_ediv_cancel _ (by omega)
  · have above : half * scale ≤ value * scale := Nat.mul_le_mul_right _ (Nat.le_of_not_lt lower)
    rw [if_neg (by exact_mod_cast Nat.not_lt.mpr above), if_neg (by omega)]
    push_cast
    rw [← Int.sub_mul]
    exact Int.mul_ediv_cancel _ (by omega)

private theorem toNat_signedCount : ∀ count : Fin 32,
    ((Int32.ofNat count).toBitVec.smod 32).toNat = count := by decide

theorem toInt_signedField (word : UInt32) {first last : Nat} (order : first ≤ last)
    (inside : last ≤ 31) :
    (signedField word first last).toInt =
      Int.bmod (field word first last).toNat (2 ^ (last - first + 1)) := by
  have small := toNat_field_lt word order inside
  have count := toNat_signedCount ⟨31 - (last - first), by omega⟩
  have double : 2 ^ (last - first + 1) = 2 * 2 ^ (last - first) := Nat.pow_succ'
  have whole : 2 ^ 32 = 2 * 2 ^ (last - first) * 2 ^ (31 - (last - first)) := by
    rw [← double, ← Nat.pow_add]
    congr 1
    omega
  rw [double] at small ⊢
  -- the field fits between the shift and the top, so shifting up loses nothing
  have kept : (field word first last).toNat * 2 ^ (31 - (last - first)) < 2 ^ 32 := by
    rw [whole]
    exact Nat.mul_lt_mul_of_pos_right small (Nat.two_pow_pos _)
  simp only [signedField]
  rw [← Int32.toInt_toBitVec, Int32.toBitVec_shiftRight, BitVec.sshiftRight_eq', count,
    BitVec.toInt_sshiftRight, Int.shiftRight_eq_div_pow, UInt32.toBitVec_toInt32,
    BitVec.toInt_eq_toNat_bmod, UInt32.toNat_toBitVec, UInt32.toNat_shiftLeft,
    toNat_count (by omega), Nat.shiftLeft_eq, Nat.mod_eq_of_lt kept, whole]
  exact bmod_mul_div small (Nat.two_pow_pos _)

end CubePatch
