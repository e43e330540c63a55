import CubePatch.Instruction.Encoding
import CubePatch.Proofs.Word
import Mathlib.Data.Int.ModEq

/-!
What the fields of a word tell about it.

A field tells the bits of its range and nothing else. So the fields of two neighbouring ranges make
up the field of both, and some fields make up the whole word exactly if every bit stands in one of
their ranges. A field with a sign is known by its bounds and by its residue modulo a power of two.

Shifts by the width of a word or more mean different things on different machines. The accessors are
read a second time with such shifts refused, and give the same.

## Main result

`field_exact`: which number each way to read a field gives, and what is known of a word by its
fields.
-/
namespace CubePatch

/-- Where a field stands in a word. -/
structure BitRange where
  first : Nat
  last : Nat
  order : first ≤ last
  inside : last ≤ 31

def BitRange.Holds (range : BitRange) (bit : Nat) : Prop :=
  range.first ≤ bit ∧ bit ≤ range.last

instance (range : BitRange) (bit : Nat) : Decidable (range.Holds bit) :=
  inferInstanceAs (Decidable (_ ∧ _))

variable (word other : UInt32) (range : BitRange)

/-! ### Numbers with a sign -/

/-- `value` is what is left of `number` in two's complement, where the sign has the weight
`2 ^ sign`. -/
def IsSignedPart (sign : Nat) (number value : Int) : Prop :=
  -2 ^ sign ≤ value ∧ value < 2 ^ sign ∧ value ≡ number [ZMOD 2 ^ (sign + 1)]

instance (sign : Nat) (number value : Int) : Decidable (IsSignedPart sign number value) :=
  inferInstanceAs (Decidable (_ ∧ _ ∧ _))

/-- There is one such number, the remainder that is nearest to zero. -/
theorem isSignedPart_iff (sign : Nat) (number value : Int) :
    IsSignedPart sign number value ↔ value = Int.bmod number (2 ^ (sign + 1)) := by
  have modulus : (2 : Int) ^ (sign + 1) = (2 ^ (sign + 1) : Nat) := (Int.natCast_pow 2 _).symm
  have double : ((2 ^ (sign + 1) : Nat) : Int) = 2 * 2 ^ sign := by
    rw [← modulus, pow_succ']
  rw [IsSignedPart, Int.ModEq, modulus]
  constructor
  · rintro ⟨lower, upper, same⟩
    -- between its bounds a number is its own remainder
    have near : Int.bmod value (2 ^ (sign + 1)) = value := by
      apply Int.bmod_eq_of_le
      · omega
      · omega
    rw [← near, ← Int.emod_bmod, same, Int.emod_bmod]
  · rintro rfl
    have lower : -(((2 ^ (sign + 1) : Nat) : Int) / 2) ≤ Int.bmod number (2 ^ (sign + 1)) :=
      Int.le_bmod (Nat.two_pow_pos _)
    have upper : Int.bmod number (2 ^ (sign + 1)) < (((2 ^ (sign + 1) : Nat) : Int) + 1) / 2 :=
      Int.bmod_lt (Nat.two_pow_pos _)
    refine ⟨by omega, by omega, Int.bmod_emod⟩

/-- Bits without a sign may follow a number with one. -/
theorem IsSignedPart.append {sign width high low : Nat} {value : Int}
    (part : IsSignedPart sign high value) (small : low < 2 ^ width) :
    IsSignedPart (sign + width) (high * 2 ^ width + low : Nat) (value * 2 ^ width + low) := by
  obtain ⟨lower, upper, same⟩ := part
  have positive : (0 : Int) ≤ 2 ^ width := Int.pow_nonneg (by decide)
  have bound : (low : Int) < 2 ^ width := by exact_mod_cast small
  have modulus : (2 : Int) ^ (sign + width + 1) = 2 ^ (sign + 1) * 2 ^ width := by
    rw [Nat.add_right_comm, pow_add]
  -- one more of the upper part weighs more than all that can follow it
  refine ⟨?_, ?_, ?_⟩
  · have scaled := Int.mul_le_mul_of_nonneg_right lower positive
    rw [pow_add]
    rw [Int.neg_mul] at scaled
    omega
  · have scaled := Int.mul_le_mul_of_nonneg_right (Int.add_one_le_of_lt upper) positive
    rw [pow_add]
    rw [Int.add_mul, Int.one_mul] at scaled
    omega
  · rw [modulus]
    push_cast
    exact same.mul_right'.add_right low

theorem eq_signedField_iff (value : Int) :
    value = (signedField word range.first range.last).toInt ↔
      IsSignedPart (range.last - range.first) (field word range.first range.last).toNat value := by
  rw [isSignedPart_iff, toInt_signedField word range.order range.inside]

theorem eq_signedHalfField_iff (first last : Nat) (value : Int) :
    value = (signedHalfField word first last).toInt ↔
      IsSignedPart 15 (signedField word first last).toInt value := by
  rw [isSignedPart_iff, signedHalfField, Int32.toInt_toInt16]

theorem eq_signedByteField_iff (first last : Nat) (value : Int) :
    value = (signedByteField word first last).toInt ↔
      IsSignedPart 7 (signedField word first last).toInt value := by
  rw [isSignedPart_iff, signedByteField, Int32.toInt_toInt8]

/-! ### Narrow fields -/

/-- A field is read into fewer bits without loss if it is not wider than these. -/
theorem toNat_field_mod {width : Nat} (narrow : range.last - range.first < width) :
    (field word range.first range.last).toNat % 2 ^ width =
      (field word range.first range.last).toNat := by
  apply Nat.mod_eq_of_lt
  calc (field word range.first range.last).toNat
      < 2 ^ (range.last - range.first + 1) := toNat_field_lt word range.order range.inside
    _ ≤ 2 ^ width := Nat.pow_le_pow_right (by decide) narrow

theorem toNat_halfField (narrow : range.last - range.first < 16) :
    (halfField word range.first range.last).toNat =
      (field word range.first range.last).toNat := by
  rw [halfField, UInt32.toNat_toUInt16, toNat_field_mod word range narrow]

theorem toNat_byteField (narrow : range.last - range.first < 8) :
    (byteField word range.first range.last).toNat =
      (field word range.first range.last).toNat := by
  rw [byteField, UInt32.toNat_toUInt8, toNat_field_mod word range narrow]

/-! ### The bits of a field -/

theorem isSet_eq_testBit {bit : Nat} (inside : bit ≤ 31) :
    isSet word bit = word.toNat.testBit (31 - bit) := by
  rw [Bool.eq_iff_iff, isSet_iff word inside, Nat.testBit_eq_decide_div_mod_eq, decide_eq_true_eq]

/-- A bit that is kept in its place is not lost exactly if it is one when it is read by itself. -/
theorem bitAt_ne_zero_iff {bit : Nat} (inside : bit ≤ 31) :
    bitAt word bit ≠ 0 ↔ field word bit bit = 1 := by
  have flag := isSet_iff word inside
  have alone : (field word bit bit).toNat = word.toNat / 2 ^ (31 - bit) % 2 := by
    rw [toNat_field word (Nat.le_refl bit) inside, Nat.sub_self, Nat.zero_add, Nat.pow_one]
  rw [isSet, bne_iff_ne] at flag
  rw [flag, ← alone, ← UInt32.toNat_inj, UInt32.toNat_one]

theorem testBit_field (place : Nat) :
    (field word range.first range.last).toNat.testBit place =
      (decide (place < range.last - range.first + 1) &&
        word.toNat.testBit (place + (31 - range.last))) := by
  rw [toNat_field word range.order range.inside, Nat.testBit_mod_two_pow, Nat.testBit_div_two_pow]

theorem testBit_field_of_holds {bit : Nat} (held : range.Holds bit) :
    (field word range.first range.last).toNat.testBit (range.last - bit) = isSet word bit := by
  obtain ⟨behind, before⟩ := held
  have inside := range.inside
  have place : range.last - bit + (31 - range.last) = 31 - bit := by omega
  rw [testBit_field, decide_eq_true (by omega), Bool.true_and, place,
    isSet_eq_testBit word (by omega)]

/-- Two words show the same field exactly if they agree on every bit of its range. -/
theorem field_eq_iff :
    field word range.first range.last = field other range.first range.last ↔
      ∀ bit, range.Holds bit → isSet word bit = isSet other bit := by
  constructor
  · intro same bit held
    rw [← testBit_field_of_holds word range held, same, testBit_field_of_holds other range held]
  · intro same
    apply UInt32.toNat_inj.mp
    apply Nat.eq_of_testBit_eq
    intro place
    by_cases low : place < range.last - range.first + 1
    · -- the places of a number are counted from the end, the bits of a word from its front
      have order := range.order
      have held : range.Holds (range.last - place) := ⟨by omega, by omega⟩
      have counted : range.last - (range.last - place) = place := by omega
      have bits := same _ held
      rwa [← testBit_field_of_holds word range held, ← testBit_field_of_holds other range held,
        counted] at bits
    · rw [testBit_field, testBit_field, decide_eq_false low, Bool.false_and, Bool.false_and]

theorem field_whole : field word 0 31 = word := by
  apply UInt32.toNat_inj.mp
  rw [toNat_field word (by decide) (by decide), Nat.sub_self, Nat.pow_zero, Nat.div_one]
  exact Nat.mod_eq_of_lt word.toNat_lt

theorem eq_iff_isSet : word = other ↔ ∀ bit ≤ 31, isSet word bit = isSet other bit := by
  have whole := field_eq_iff word other ⟨0, 31, by decide, by decide⟩
  rw [field_whole, field_whole] at whole
  rw [whole]
  constructor
  · intro same bit inside
    exact same bit ⟨Nat.zero_le bit, inside⟩
  · intro same bit held
    exact same bit held.2

/-! ### Fields side by side -/

variable {left right : BitRange}

/-- The whole field is the upper one, moved up by the width of the lower one, and the lower one. -/
theorem toNat_field_append (adjacent : left.last + 1 = right.first) :
    (field word left.first right.last).toNat =
      (field word left.first left.last).toNat * 2 ^ (right.last - right.first + 1) +
        (field word right.first right.last).toNat := by
  have leftOrder := left.order
  have rightOrder := right.order
  have rightInside := right.inside
  have width : right.last - left.first + 1 =
      right.last - right.first + 1 + (left.last - left.first + 1) := by omega
  have place : 31 - left.last = 31 - right.last + (right.last - right.first + 1) := by omega
  -- the upper field is taken from the quotient of which the lower one is the remainder
  rw [toNat_field word (by omega) rightInside, toNat_field word leftOrder left.inside,
    toNat_field word rightOrder rightInside, width, place, Nat.pow_add 2 (31 - right.last),
    ← Nat.div_div_eq_div_mul, Nat.pow_add, Nat.mod_mul, Nat.add_comm, Nat.mul_comm]

/-- The sign of a field is the sign of its upper part. -/
theorem toInt_signedField_append (adjacent : left.last + 1 = right.first) :
    (signedField word left.first right.last).toInt =
      (signedField word left.first left.last).toInt * 2 ^ (right.last - right.first + 1) +
        (field word right.first right.last).toNat := by
  have leftOrder := left.order
  have rightOrder := right.order
  have sign : right.last - left.first =
      left.last - left.first + (right.last - right.first + 1) := by omega
  have upper := (eq_signedField_iff word left _).mp rfl
  have whole := eq_signedField_iff word ⟨left.first, right.last, by omega, right.inside⟩
  simp only [toNat_field_append word adjacent, sign] at whole
  exact ((whole _).mpr (upper.append (toNat_field_lt word rightOrder right.inside))).symm

/-! ### Fields that make up a word -/

/-- Every bit of a word stands in one of the ranges. The ranges may overlap, so a partition of the
word is one such list. -/
def CoversWord (ranges : List BitRange) : Prop :=
  ∀ bit ≤ 31, ∃ range ∈ ranges, range.Holds bit

instance (ranges : List BitRange) : Decidable (CoversWord ranges) :=
  inferInstanceAs (Decidable (∀ bit ≤ 31, _))

/-- Turning over one bit of a word leaves the others. -/
theorem isSet_flip {bit place : Nat} (inside : bit ≤ 31) (small : place ≤ 31) :
    isSet (word ^^^ fieldMask bit bit) place = (isSet word place ^^ decide (bit = place)) := by
  have mask : (fieldMask bit bit).toNat = 2 ^ (31 - bit) := by
    rw [toNat_fieldMask (Nat.le_refl bit) inside, Nat.sub_self]
    exact Nat.one_mul _
  have same : 31 - bit = 31 - place ↔ bit = place := by omega
  rw [isSet_eq_testBit _ small, isSet_eq_testBit word small, UInt32.toNat_xor, Nat.testBit_xor, mask,
    Nat.testBit_two_pow, decide_eq_decide.mpr same]

/-- Some fields tell a word from all others exactly if no bit is left out. -/
theorem coversWord_iff (ranges : List BitRange) :
    CoversWord ranges ↔ ∀ other, (∀ range ∈ ranges,
      field word range.first range.last = field other range.first range.last) → word = other := by
  constructor
  · intro covered other same
    rw [eq_iff_isSet]
    intro bit inside
    obtain ⟨range, listed, held⟩ := covered bit inside
    exact (field_eq_iff word other range).mp (same range listed) bit held
  · intro known bit inside
    by_contra missed
    -- no field shows whether this bit is turned over
    have unseen : word = word ^^^ fieldMask bit bit := by
      apply known
      intro range listed
      rw [field_eq_iff]
      intro place held
      have apart : bit ≠ place := by
        rintro rfl
        exact missed ⟨range, listed, held⟩
      rw [isSet_flip word inside (held.2.trans range.inside), decide_eq_false apart, Bool.xor_false]
    have turned := isSet_flip word inside inside
    rw [← unseen, decide_eq_true rfl, Bool.xor_true] at turned
    exact Bool.not_ne_self _ turned.symm

/-! ### Shifts by less than a word -/

/-- The amount of a shift, refused if it reaches the width of a word. -/
def shiftAmount? (amount : Nat) : Option Nat :=
  if amount < 32 then some amount else none

/-- The mask of a field, by the same shifts where none is refused. -/
def fieldMask? (first last : Nat) : Option UInt32 := do
  let down ← shiftAmount? (first + (31 - last))
  let up ← shiftAmount? (31 - last)
  return 0xFFFFFFFF >>> UInt32.ofNat down <<< UInt32.ofNat up

/-- A field, by the same shifts where none is refused. -/
def field? (word : UInt32) (first last : Nat) : Option UInt32 := do
  let mask ← fieldMask? first last
  let down ← shiftAmount? (31 - last)
  return (word &&& mask) >>> UInt32.ofNat down

/-- A field with its sign, by the same shifts where none is refused. -/
def signedField? (word : UInt32) (first last : Nat) : Option Int32 := do
  let value ← field? word first last
  let shift ← shiftAmount? (31 - (last - first))
  return (value <<< UInt32.ofNat shift).toInt32 >>> Int32.ofNat shift

/-- A bit in its place, by the same shift where it is not refused. -/
def bitAt? (word : UInt32) (bit : Nat) : Option UInt32 := do
  let up ← shiftAmount? (31 - bit)
  return word &&& (1 <<< UInt32.ofNat up)

theorem shiftAmount?_of_lt {amount : Nat} (small : amount < 32) :
    shiftAmount? amount = some amount :=
  if_pos small

theorem shiftAmount?_of_le {amount : Nat} (large : 32 ≤ amount) : shiftAmount? amount = none :=
  if_neg (Nat.not_lt.mpr large)

/-- A shift reaches the width of a word exactly if the bits of the field are in the wrong order. -/
theorem fieldMask?_eq (first : Nat) {last : Nat} (inside : last ≤ 31) :
    fieldMask? first last = if first ≤ last then some (fieldMask first last) else none := by
  by_cases order : first ≤ last
  · rw [if_pos order, fieldMask?, shiftAmount?_of_lt (by omega), shiftAmount?_of_lt (by omega)]
    rfl
  · rw [if_neg order, fieldMask?, shiftAmount?_of_le (by omega)]
    rfl

theorem field?_eq (first : Nat) {last : Nat} (inside : last ≤ 31) :
    field? word first last = if first ≤ last then some (field word first last) else none := by
  rw [field?, fieldMask?_eq first inside, shiftAmount?_of_lt (by omega)]
  by_cases order : first ≤ last
  · rw [if_pos order, if_pos order]
    rfl
  · rw [if_neg order, if_neg order]
    rfl

theorem signedField?_eq (first : Nat) {last : Nat} (inside : last ≤ 31) :
    signedField? word first last =
      if first ≤ last then some (signedField word first last) else none := by
  rw [signedField?, field?_eq word first inside, shiftAmount?_of_lt (by omega)]
  by_cases order : first ≤ last
  · rw [if_pos order, if_pos order]
    rfl
  · rw [if_neg order, if_neg order]
    rfl

theorem bitAt?_eq (bit : Nat) : bitAt? word bit = some (bitAt word bit) := by
  rw [bitAt?, shiftAmount?_of_lt (by omega)]
  rfl

/-! ### All readings of a word -/

/-- Each way to read a field gives the number it is meant to give, and shifts by less than a word on
the way. -/
structure IsExactField (word : UInt32) (range : BitRange) : Prop where
  unsigned : (field word range.first range.last).toNat =
    word.toNat / 2 ^ (31 - range.last) % 2 ^ (range.last - range.first + 1)
  signed : ∀ value : Int, value = (signedField word range.first range.last).toInt ↔
    IsSignedPart (range.last - range.first) (field word range.first range.last).toNat value
  half : range.last - range.first < 16 →
    (halfField word range.first range.last).toNat = (field word range.first range.last).toNat
  signedHalf : ∀ value : Int, value = (signedHalfField word range.first range.last).toInt ↔
    IsSignedPart 15 (signedField word range.first range.last).toInt value
  byte : range.last - range.first < 8 →
    (byteField word range.first range.last).toNat = (field word range.first range.last).toNat
  signedByte : ∀ value : Int, value = (signedByteField word range.first range.last).toInt ↔
    IsSignedPart 7 (signedField word range.first range.last).toInt value
  shifts : field? word range.first range.last = some (field word range.first range.last)
  signedShifts : signedField? word range.first range.last =
    some (signedField word range.first range.last)

theorem isExactField : IsExactField word range where
  unsigned := toNat_field word range.order range.inside
  signed := eq_signedField_iff word range
  half := toNat_halfField word range
  signedHalf := eq_signedHalfField_iff word range.first range.last
  byte := toNat_byteField word range
  signedByte := eq_signedByteField_iff word range.first range.last
  shifts := by rw [field?_eq word range.first range.inside, if_pos range.order]
  signedShifts := by rw [signedField?_eq word range.first range.inside, if_pos range.order]

/-- The two halves of a field make up the field, with its sign or without. -/
structure IsJoined (word : UInt32) (left right : BitRange) : Prop where
  unsigned : (field word left.first right.last).toNat =
    (field word left.first left.last).toNat * 2 ^ (right.last - right.first + 1) +
      (field word right.first right.last).toNat
  signed : (signedField word left.first right.last).toInt =
    (signedField word left.first left.last).toInt * 2 ^ (right.last - right.first + 1) +
      (field word right.first right.last).toNat

theorem toNat_extendedOpcode : (extendedOpcode word).toNat = word.toNat / 2 % 2 ^ 10 :=
  toNat_field word (by decide) (by decide)

/-- A field is the word moved down to its last bit and cut to its width. With a sign it is the only
number between its bounds with this residue, and in fewer bits it keeps what fits there. A bit is set
if it is one as a field of its own. A field that is cut in two is joined again from its parts, and
some fields tell the word from every other one exactly if no bit is left out, as in a partition. No
shift on the way reaches the width of a word. -/
theorem field_exact (word : UInt32) :
    (∀ range : BitRange, IsExactField word range) ∧
    (∀ bit ≤ 31, (bitAt word bit ≠ 0 ↔ field word bit bit = 1) ∧
      bitAt? word bit = some (bitAt word bit)) ∧
    (∀ left right : BitRange, left.last + 1 = right.first → IsJoined word left right) ∧
    (∀ ranges : List BitRange, CoversWord ranges ↔ ∀ other, (∀ range ∈ ranges,
      field word range.first range.last = field other range.first range.last) → word = other) ∧
    (primaryOpcode word).toNat = word.toNat / 2 ^ 26 ∧
    (extendedOpcode word).toNat = word.toNat / 2 % 2 ^ 10 := by
  refine ⟨isExactField word, ?_, ?_, coversWord_iff word, toNat_primaryOpcode word,
    toNat_extendedOpcode word⟩
  · intro bit inside
    exact ⟨bitAt_ne_zero_iff word inside, bitAt?_eq word bit⟩
  · intro left right adjacent
    exact ⟨toNat_field_append word adjacent, toInt_signedField_append word adjacent⟩

/-- The opcode of a plain branch, its way and its two flags. -/
def branchRanges : List BitRange :=
  [⟨0, 5, by decide, by decide⟩, ⟨6, 29, by decide, by decide⟩, ⟨30, 30, by decide, by decide⟩,
    ⟨31, 31, by decide, by decide⟩]

/-- A branch back by four instructions, read and written. -/
theorem field_exact_linkedBranch :
    IsSignedPart 23 (field 0x4BFFFFF1 6 29).toNat (-4) ∧
    -4 = (signedField 0x4BFFFFF1 6 29).toInt ∧
    5 - 0 < 8 ∧ (byteField 0x4BFFFFF1 0 5).toNat = (field 0x4BFFFFF1 0 5).toNat ∧
    30 ≤ 31 ∧ (bitAt 0x4BFFFFF1 30 ≠ 0 ↔ field 0x4BFFFFF1 30 30 = 1) ∧
    5 + 1 = 6 ∧ (field 0x4BFFFFF1 0 29).toNat =
      (field 0x4BFFFFF1 0 5).toNat * 2 ^ 24 + (field 0x4BFFFFF1 6 29).toNat ∧
    (∀ range ∈ branchRanges, field 0x4BFFFFF1 range.first range.last =
      field (branchWord 0x80003110 0x80003100 true) range.first range.last) ∧
    0x4BFFFFF1 = branchWord 0x80003110 0x80003100 true := by
  obtain ⟨readings, bits, joins, known, -, -⟩ := field_exact 0x4BFFFFF1
  have back : IsSignedPart 23 (field 0x4BFFFFF1 6 29).toNat (-4) := by decide
  have parts : ∀ range ∈ branchRanges, field 0x4BFFFFF1 range.first range.last =
      field (branchWord 0x80003110 0x80003100 true) range.first range.last := by decide
  have joined := joins ⟨0, 5, by decide, by decide⟩ ⟨6, 29, by decide, by decide⟩ (by decide)
  refine ⟨back, ((readings ⟨6, 29, by decide, by decide⟩).signed _).mpr back, by decide,
    (readings ⟨0, 5, by decide, by decide⟩).byte (by decide), by decide,
    (bits 30 (by decide)).1, by decide, joined.unsigned, parts, ?_⟩
  exact (known branchRanges).mp (by decide) _ parts

end CubePatch
