import CubePatch.Proofs.Instruction
import CubePatch.Proofs.Payload.Bootstrap
import CubePatch.Proofs.Payload.Handler

/-!
The address of the code list in a handler.

Two instructions load it: what they are is told by the upper halves of their words, and the halves of
the address are the lower ones. Only the lower halves are filled in, so the two words load the new
address if they loaded one before.

## Main result

`codeListPointer_exact`: what is filled in is read back wherever an address was read before, and
nothing is left of what was filled in earlier.
-/
namespace CubePatch

/-! ### Halves that are written and joined -/

theorem joinHalf_of_halfBytes (half : UInt16) : joinHalf (half >>> 8).toUInt8 half.toUInt8 = half := by
  have small := half.toNat_lt
  apply UInt16.toNat_inj.mp
  rw [toNat_joinHalf]
  simp [UInt16.toNat_shiftRight, Nat.shiftRight_eq_div_pow]
  omega

theorem halfAt_of_slice {bytes : Bytes} {offset : Nat} {half : UInt16}
    (stands : slice bytes offset 2 = halfBytes half) : halfAt bytes offset = half := by
  unfold slice at stands
  unfold halfAt
  generalize bytes.drop offset = tail at stands ⊢
  rcases tail with _ | ⟨a, _ | ⟨b, rest⟩⟩ <;> simp [halfBytes] at stands
  obtain ⟨rfl, rfl⟩ := stands
  exact joinHalf_of_halfBytes half

theorem halfAt_slice (bytes : Bytes) (offset : Nat) :
    halfAt (slice bytes offset 2) 0 = halfAt bytes offset := by
  simp only [halfAt, slice, List.drop_zero]
  rcases bytes.drop offset with _ | ⟨a, _ | ⟨b, rest⟩⟩ <;> rfl

theorem halfAt_overwrite_of_apart {bytes data : Bytes} {offset start : Nat}
    (apart : start + 2 ≤ offset ∨ offset + data.length ≤ start) :
    halfAt (overwrite bytes offset data) start = halfAt bytes start := by
  rw [← halfAt_slice, slice_overwrite_of_apart apart, halfAt_slice]

theorem halfAt_overwrite_self {bytes : Bytes} {offset : Nat} {half : UInt16}
    (inside : offset + 2 ≤ bytes.length) :
    halfAt (overwrite bytes offset (halfBytes half)) offset = half :=
  halfAt_of_slice (slice_overwrite_self inside)

/-- The halves of an address are joined to the address. -/
theorem joinPlain_halves (address : UInt32) :
    joinPlain (upperHalf address) (lowerHalf address) = address := by
  have small := address.toNat_lt
  have low : address.toNat % 2 ^ 16 < 2 ^ 16 := Nat.mod_lt _ (by decide)
  apply UInt32.toNat_inj.mp
  have upper : (upperHalf address).toUInt32.toNat = address.toNat / 2 ^ 16 := by
    simp [upperHalf, UInt32.toNat_shiftRight, Nat.shiftRight_eq_div_pow]
    omega
  have lower : (lowerHalf address).toUInt32.toNat = address.toNat % 2 ^ 16 := by
    simp [lowerHalf]
  -- the upper half is moved up without losing a bit, and has none in common with the lower one
  have shifted : (address.toNat / 2 ^ 16) <<< 16 % 2 ^ 32 = (address.toNat / 2 ^ 16) <<< 16 := by
    rw [Nat.shiftLeft_eq]
    omega
  rw [joinPlain, UInt32.toNat_or, UInt32.toNat_shiftLeft, upper, lower]
  show (address.toNat / 2 ^ 16) <<< 16 % 2 ^ 32 ||| address.toNat % 2 ^ 16 = address.toNat
  rw [shifted, ← Nat.shiftLeft_add_eq_or_of_lt low, Nat.shiftLeft_eq]
  omega

/-! ### The two instructions -/

theorem toNat_upperHalf (word : UInt32) : (upperHalf word).toNat = word.toNat / 2 ^ 16 := by
  have small := word.toNat_lt
  simp [upperHalf, UInt32.toNat_shiftRight, Nat.shiftRight_eq_div_pow]
  omega

/-- A word loads an upper half without adding to it. -/
def IsUpperLoad (half : UInt16) : Prop :=
  half.toNat / 2 ^ 10 = 15 ∧ half.toNat % 2 ^ 5 = 0

/-- A word sets the bits of a lower half. -/
def IsLowerLoad (half : UInt16) : Prop :=
  half.toNat / 2 ^ 10 = 24

instance (half : UInt16) : Decidable (IsUpperLoad half) :=
  inferInstanceAs (Decidable (_ ∧ _))

instance (half : UInt16) : Decidable (IsLowerLoad half) :=
  inferInstanceAs (Decidable (_ = _))

theorem toNat_primaryOpcode_upperHalf (word : UInt32) :
    (primaryOpcode word).toNat = (upperHalf word).toNat / 2 ^ 10 := by
  rw [toNat_upperHalf, Nat.div_div_eq_div_mul, toNat_primaryOpcode]
  rfl

theorem halfField_lower (word : UInt32) : halfField word 16 31 = lowerHalf word := by
  apply UInt16.toNat_inj.mp
  rw [halfField, lowerHalf, UInt32.toNat_toUInt16, UInt32.toNat_toUInt16,
    toNat_field word (by decide) (by decide)]
  simp

/-- Taken with its sign or without, a field of sixteen bits keeps all of them. -/
theorem signedHalfField_lower (word : UInt32) :
    (signedHalfField word 16 31).toUInt16 = lowerHalf word := by
  have unsigned : (field word 16 31).toNat = (lowerHalf word).toNat := by
    rw [lowerHalf, UInt32.toNat_toUInt16, toNat_field word (by decide) (by decide)]
    simp
  -- the sign of the field is the sign of the half, so the second reduction changes nothing
  have signed : (signedHalfField word 16 31).toInt = (lowerHalf word).toInt16.toInt := by
    rw [signedHalfField, Int32.toInt_toInt16, toInt_signedField word (by decide) (by decide),
      Int.bmod_bmod, unsigned]
    exact (BitVec.toInt_eq_toNat_bmod _).symm
  rw [Int16.toInt_inj.mp signed, UInt16.toUInt16_toInt16]

theorem byteField_source_eq_zero_iff (word : UInt32) :
    byteField word 11 15 = 0 ↔ (upperHalf word).toNat % 2 ^ 5 = 0 := by
  have value := toNat_field word (show 11 ≤ 15 by decide) (by decide)
  rw [toNat_upperHalf, ← UInt8.toNat_inj, byteField, UInt32.toNat_toUInt8, value]
  simp only [UInt8.toNat_zero]
  omega

theorem decode?_eq_addShifted_iff (word : UInt32) (value : UInt16) :
    (∃ dest upper, Instruction.decode? word = some (.addShifted dest none upper) ∧
        upper.toUInt16 = value) ↔
      IsUpperLoad (upperHalf word) ∧ lowerHalf word = value := by
  rw [IsUpperLoad, ← toNat_primaryOpcode_upperHalf, ← byteField_source_eq_zero_iff,
    ← signedHalfField_lower]
  constructor
  · rintro ⟨dest, upper, decoded, rfl⟩
    unfold Instruction.decode? at decoded
    dsimp only at decoded
    -- every other opcode is decoded as another instruction or not at all
    split at decoded
    case h_4 opcode =>
      simp only [Option.some.injEq, Instruction.addShifted.injEq] at decoded
      obtain ⟨-, source, rfl⟩ := decoded
      refine ⟨⟨opcode, ?_⟩, rfl⟩
      -- with a source the instruction adds to it, so it is not a load
      by_cases plain : byteField word 11 15 = 0
      · exact plain
      · rw [if_neg plain] at source
        cases source
    case h_3 => split at decoded <;> cases decoded
    all_goals cases decoded
  · rintro ⟨⟨opcode, source⟩, rfl⟩
    refine ⟨byteField word 6 10, signedHalfField word 16 31, ?_, rfl⟩
    simp only [Instruction.decode?, opcode, source, if_true]

theorem decode?_eq_orImmediate_iff (word : UInt32) (value : UInt16) :
    (∃ source dest, Instruction.decode? word = some (.orImmediate source dest value)) ↔
      IsLowerLoad (upperHalf word) ∧ lowerHalf word = value := by
  rw [IsLowerLoad, ← toNat_primaryOpcode_upperHalf, ← halfField_lower]
  constructor
  · rintro ⟨source, dest, decoded⟩
    unfold Instruction.decode? at decoded
    dsimp only at decoded
    split at decoded
    case h_6 opcode =>
      simp only [Option.some.injEq, Instruction.orImmediate.injEq] at decoded
      exact ⟨opcode, decoded.2.2⟩
    case h_3 => split at decoded <;> cases decoded
    all_goals cases decoded
  · rintro ⟨opcode, rfl⟩
    refine ⟨byteField word 6 10, byteField word 11 15, ?_⟩
    simp only [Instruction.decode?, opcode]

namespace Handler

/-- The two words of a handler that may load the address of the code list do so. -/
def LoadsPointer (handler : Handler) : Prop :=
  IsUpperLoad (upperHalf (wordAt handler.payload pointerOffset)) ∧
    IsLowerLoad (upperHalf (wordAt handler.payload (pointerOffset + 4)))

instance (handler : Handler) : Decidable handler.LoadsPointer :=
  inferInstanceAs (Decidable (_ ∧ _))

/-- What is loaded is put together from the lower halves of the two words. -/
theorem codeListPointer?_eq_some_iff (handler : Handler) (address : UInt32) :
    handler.codeListPointer? = some address ↔ handler.LoadsPointer ∧
      joinPlain (lowerHalf (wordAt handler.payload pointerOffset))
        (lowerHalf (wordAt handler.payload (pointerOffset + 4))) = address := by
  have upper := decode?_eq_addShifted_iff (wordAt handler.payload pointerOffset)
  have lower := decode?_eq_orImmediate_iff (wordAt handler.payload (pointerOffset + 4))
  unfold codeListPointer? LoadsPointer
  constructor
  · intro loaded
    split at loaded
    next dest high source other low first second =>
      cases loaded
      obtain ⟨up, same⟩ := (upper high.toUInt16).mp ⟨_, _, first, rfl⟩
      obtain ⟨down, equal⟩ := (lower low).mp ⟨_, _, second⟩
      exact ⟨⟨up, down⟩, by rw [same, equal]⟩
    · cases loaded
  · rintro ⟨⟨up, down⟩, rfl⟩
    obtain ⟨dest, high, first, same⟩ := (upper _).mpr ⟨up, rfl⟩
    obtain ⟨source, other, second⟩ := (lower _).mpr ⟨down, rfl⟩
    rw [first, second]
    dsimp only
    rw [same]

theorem isSome_codeListPointer?_iff (handler : Handler) :
    handler.codeListPointer?.isSome = true ↔ handler.LoadsPointer := by
  rw [Option.isSome_iff_exists]
  simp only [codeListPointer?_eq_some_iff, exists_and_left, exists_eq', and_true]

/-- Filling in an address leaves what the two instructions are and changes what they load. -/
theorem halves_setCodeListPointer (handler : Handler) (address : UInt32) :
    upperHalf (wordAt (handler.setCodeListPointer address).payload pointerOffset) =
        upperHalf (wordAt handler.payload pointerOffset) ∧
      lowerHalf (wordAt (handler.setCodeListPointer address).payload pointerOffset) =
        upperHalf address ∧
      upperHalf (wordAt (handler.setCodeListPointer address).payload (pointerOffset + 4)) =
        upperHalf (wordAt handler.payload (pointerOffset + 4)) ∧
      lowerHalf (wordAt (handler.setCodeListPointer address).payload (pointerOffset + 4)) =
        lowerHalf address := by
  have long : pointerOffset + 8 ≤ handler.payload.length := handler.minLength_le
  have length_first : (overwrite handler.payload (pointerOffset + 2)
      (halfBytes (upperHalf address))).length = handler.payload.length := length_overwrite _ _ _
  have same : (handler.setCodeListPointer address).payload.length = handler.payload.length :=
    length_setCodeListPointer handler address
  obtain ⟨old_first, -⟩ := halves_wordAt (show pointerOffset + 4 ≤ handler.payload.length by omega)
  obtain ⟨old_second, -⟩ :=
    halves_wordAt (show pointerOffset + 4 + 4 ≤ handler.payload.length by omega)
  obtain ⟨first_upper, first_lower⟩ := halves_wordAt
    (show pointerOffset + 4 ≤ (handler.setCodeListPointer address).payload.length by omega)
  obtain ⟨second_upper, second_lower⟩ := halves_wordAt
    (show pointerOffset + 4 + 4 ≤ (handler.setCodeListPointer address).payload.length by omega)
  have two := length_halfBytes (upperHalf address)
  -- each of the four halves is the one written there, or is missed by both writes
  rw [old_first, old_second, first_upper, first_lower, second_upper, second_lower]
  refine ⟨?_, ?_, ?_, ?_⟩ <;> unfold setCodeListPointer patch
  · rw [halfAt_overwrite_of_apart (Or.inl (by omega)),
      halfAt_overwrite_of_apart (Or.inl (by omega))]
  · rw [halfAt_overwrite_of_apart (Or.inl (by omega)), halfAt_overwrite_self (by omega)]
  · rw [halfAt_overwrite_of_apart (Or.inl (by omega)),
      halfAt_overwrite_of_apart (Or.inr (by omega))]
  · rw [halfAt_overwrite_self (by rw [length_first]; omega)]

/-- A handler that loads the address of a code list loads the one that is filled in. -/
theorem codeListPointer?_setCodeListPointer {handler : Handler} (loads : handler.LoadsPointer)
    (address : UInt32) : (handler.setCodeListPointer address).codeListPointer? = some address := by
  obtain ⟨first_kind, upper, second_kind, lower⟩ := halves_setCodeListPointer handler address
  rw [codeListPointer?_eq_some_iff]
  refine ⟨⟨?_, ?_⟩, ?_⟩
  · rw [first_kind]
    exact loads.1
  · rw [second_kind]
    exact loads.2
  · rw [upper, lower, joinPlain_halves]

/-! ### What is kept and what is read back -/

/-- The bytes that are filled in: the last two of each of the two words. -/
def pointerBytes : List Nat := [0xFA, 0xFB, 0xFE, 0xFF]

theorem getElem?_setCodeListPointer (handler : Handler) (address : UInt32) (position : Nat) :
    (handler.setCodeListPointer address).payload[position]? =
      if 0xFE ≤ position ∧ position < 0x100 then (halfBytes (lowerHalf address))[position - 0xFE]?
      else if 0xFA ≤ position ∧ position < 0xFC then
        (halfBytes (upperHalf address))[position - 0xFA]?
      else handler.payload[position]? := by
  have long : 0x100 ≤ handler.payload.length := handler.minLength_le
  unfold setCodeListPointer patch
  rw [getElem?_overwrite, getElem?_overwrite, length_overwrite, length_halfBytes, length_halfBytes]
  -- a handler is so long that both halves are inside of it
  by_cases second : 0xFE ≤ position ∧ position < 0x100
  · rw [if_pos (by unfold pointerOffset; omega), if_pos second]
    rfl
  · rw [if_neg (by unfold pointerOffset; omega), if_neg second]
    by_cases first : 0xFA ≤ position ∧ position < 0xFC
    · rw [if_pos (by unfold pointerOffset; omega), if_pos first]
      rfl
    · rw [if_neg (by unfold pointerOffset; omega), if_neg first]

/-- All other bytes stay. -/
theorem getElem?_setCodeListPointer_of_notMem (handler : Handler) (address : UInt32)
    {position : Nat} (other : position ∉ pointerBytes) :
    (handler.setCodeListPointer address).payload[position]? = handler.payload[position]? := by
  simp only [pointerBytes, List.mem_cons, List.not_mem_nil, or_false] at other
  rw [getElem?_setCodeListPointer, if_neg (by omega), if_neg (by omega)]

/-- Nothing is left of an address that was filled in before. -/
theorem setCodeListPointer_setCodeListPointer (handler : Handler) (earlier address : UInt32) :
    (handler.setCodeListPointer earlier).setCodeListPointer address =
      handler.setCodeListPointer address := by
  have payload : ((handler.setCodeListPointer earlier).setCodeListPointer address).payload =
      (handler.setCodeListPointer address).payload := by
    apply List.ext_getElem?
    intro position
    rw [getElem?_setCodeListPointer, getElem?_setCodeListPointer handler address]
    by_cases second : 0xFE ≤ position ∧ position < 0x100
    · rw [if_pos second, if_pos second]
    · rw [if_neg second, if_neg second]
      by_cases first : 0xFA ≤ position ∧ position < 0xFC
      · rw [if_pos first, if_pos first]
      · rw [if_neg first, if_neg first, getElem?_setCodeListPointer, if_neg second, if_neg first]
  exact (Handler.mk.injEq _ _ _ _ _ _).mpr ⟨rfl, payload⟩

theorem setCodeListPointer_foldl (handler : Handler) (earlier : List UInt32) (address : UInt32) :
    (earlier.foldl setCodeListPointer handler).setCodeListPointer address =
      handler.setCodeListPointer address := by
  induction earlier generalizing handler with
  | nil => rfl
  | cons first later ih =>
    rw [List.foldl_cons, ih, setCodeListPointer_setCodeListPointer]

/-- Filling in does not make a pointer out of two other instructions. -/
theorem loadsPointer_setCodeListPointer_iff (handler : Handler) (address : UInt32) :
    (handler.setCodeListPointer address).LoadsPointer ↔ handler.LoadsPointer := by
  obtain ⟨first_kind, -, second_kind, -⟩ := halves_setCodeListPointer handler address
  rw [LoadsPointer, LoadsPointer, first_kind, second_kind]

theorem codeListPointer?_eq_map (handler : Handler) (address : UInt32) :
    (handler.setCodeListPointer address).codeListPointer? =
      handler.codeListPointer?.map fun _ => address := by
  by_cases loads : handler.LoadsPointer
  · obtain ⟨old, loaded⟩ :=
      Option.isSome_iff_exists.mp ((isSome_codeListPointer?_iff handler).mpr loads)
    rw [codeListPointer?_setCodeListPointer loads, loaded]
    rfl
  · have none_before : handler.codeListPointer? = none := by
      rwa [← Option.not_isSome_iff_eq_none, isSome_codeListPointer?_iff]
    have none_after : (handler.setCodeListPointer address).codeListPointer? = none := by
      rwa [← Option.not_isSome_iff_eq_none, isSome_codeListPointer?_iff,
        loadsPointer_setCodeListPointer_iff]
    rw [none_before, none_after]
    rfl

/-- An address is filled in by four bytes, and is read back exactly where an address was read
before. That depends on the upper halves of two words alone: the first has to load an upper half
without adding to it, the second has to set the bits of a lower half. Of several addresses the last
one stays. -/
theorem codeListPointer_exact (handler : Handler) (address : UInt32) :
    (handler.setCodeListPointer address).base = handler.base ∧
    (handler.setCodeListPointer address).length = handler.length ∧
    (∀ position, position ∈ pointerBytes ∨
      (handler.setCodeListPointer address).payload[position]? = handler.payload[position]?) ∧
    (handler.setCodeListPointer address).codeListPointer? =
      handler.codeListPointer?.map (fun _ => address) ∧
    (handler.codeListPointer?.isSome = true ↔
      (∃ dest value, Instruction.decode? (wordAt handler.payload pointerOffset) =
        some (.addShifted dest none value)) ∧
      ∃ source dest value, Instruction.decode? (wordAt handler.payload (pointerOffset + 4)) =
        some (.orImmediate source dest value)) ∧
    (handler.codeListPointer?.isSome = true ↔
      IsUpperLoad (upperHalf (wordAt handler.payload pointerOffset)) ∧
      IsLowerLoad (upperHalf (wordAt handler.payload (pointerOffset + 4)))) ∧
    ∀ earlier : List UInt32,
      (earlier.foldl setCodeListPointer handler).setCodeListPointer address =
        handler.setCodeListPointer address := by
  refine ⟨rfl, length_setCodeListPointer handler address, ?_,
    codeListPointer?_eq_map handler address, ?_, isSome_codeListPointer?_iff handler,
    fun earlier => setCodeListPointer_foldl handler earlier address⟩
  · intro position
    by_cases member : position ∈ pointerBytes
    · exact Or.inl member
    · exact Or.inr (getElem?_setCodeListPointer_of_notMem handler address member)
  · have upper := decode?_eq_addShifted_iff (wordAt handler.payload pointerOffset)
    have lower := decode?_eq_orImmediate_iff (wordAt handler.payload (pointerOffset + 4))
    rw [isSome_codeListPointer?_iff, LoadsPointer]
    -- the value of an instruction is its lower half, so it may be any
    constructor
    · rintro ⟨up, down⟩
      obtain ⟨dest, value, first, -⟩ := (upper _).mpr ⟨up, rfl⟩
      obtain ⟨source, other, second⟩ := (lower _).mpr ⟨down, rfl⟩
      exact ⟨⟨dest, value, first⟩, source, other, _, second⟩
    · rintro ⟨⟨dest, value, first⟩, source, other, low, second⟩
      exact ⟨((upper _).mp ⟨dest, value, first, rfl⟩).1, ((lower low).mp ⟨source, other, second⟩).1⟩

/-! ### The slot and the pointer -/

/-- The slot shares no byte with the two words that load the address of the code list. -/
def SlotIsApart (handler : Handler) : Prop :=
  ∀ slot ∈ handler.slot?, slot + 8 ≤ pointerOffset ∨ pointerOffset + 8 ≤ slot

instance (handler : Handler) : Decidable handler.SlotIsApart :=
  inferInstanceAs (Decidable (∀ slot ∈ handler.slot?, _))

/-- A trampoline in a slot that is apart leaves the words that load the address. -/
theorem wordAt_withTrampoline {handler moved : Handler} {hook replaced : UInt32}
    (apart : handler.SlotIsApart) (run : handler.withTrampoline hook replaced = .ok moved)
    {offset : Nat} (lower : pointerOffset ≤ offset) (upper : offset + 4 ≤ pointerOffset + 8) :
    wordAt moved.payload offset = wordAt handler.payload offset := by
  obtain ⟨slot, word, found, -, rfl⟩ := withTrampoline_eq_patch run
  have clear := apart slot found
  apply wordAt_congr
  intro position first last
  unfold patch
  have moved_length := length_wordBytes word
  have back_length := length_wordBytes (branchWord (handler.addressOf slot + 4) (hook + 4) false)
  rw [getElem?_overwrite, if_neg (by omega), getElem?_overwrite, if_neg (by omega)]

/-- What is in a handler that carries out `replaced` for the hook and runs the codes at `place`. -/
structure IsFitted (handler : Handler) (hook replaced place : UInt32) (fitted : Handler) :
    Prop where
  base_eq : fitted.base = handler.base
  length_eq : fitted.length = handler.length
  /-- The two instructions that load the address are those of the handler. -/
  kinds_eq : upperHalf (wordAt fitted.payload pointerOffset) =
      upperHalf (wordAt handler.payload pointerOffset) ∧
    upperHalf (wordAt fitted.payload (pointerOffset + 4)) =
      upperHalf (wordAt handler.payload (pointerOffset + 4))
  pointer : handler.LoadsPointer → fitted.codeListPointer? = some place
  carried : ∀ slot ∈ handler.slot?,
    movedWord? hook (handler.addressOf slot) replaced = some (wordAt fitted.payload slot)
  wayBack : ∀ slot ∈ handler.slot?, wordAt fitted.payload (slot + 4) =
    branchWord (handler.addressOf slot + 4) (hook + 4) false

/-- The trampoline and the address of the code list do not get in the way of each other if the slot
is apart. -/
theorem isFitted {handler moved : Handler} {hook replaced : UInt32} (apart : handler.SlotIsApart)
    (run : handler.withTrampoline hook replaced = .ok moved) (place : UInt32) :
    IsFitted handler hook replaced place (moved.setCodeListPointer place) := by
  obtain ⟨base_eq, length_eq⟩ := withTrampoline_eq_ok run
  obtain ⟨first_kind, -, second_kind, -⟩ := halves_setCodeListPointer moved place
  have first := wordAt_withTrampoline apart run (Nat.le_refl _) (Nat.le_add_right _ 4)
  have second := wordAt_withTrampoline apart run (Nat.le_add_right _ 4) (Nat.le_refl _)
  rw [first] at first_kind
  rw [second] at second_kind
  refine ⟨base_eq, (length_setCodeListPointer moved place).trans length_eq,
    ⟨first_kind, second_kind⟩, ?_, ?_, ?_⟩
  · intro loads
    refine codeListPointer?_setCodeListPointer ?_ place
    rw [LoadsPointer, first, second]
    exact loads
  -- both words of the slot are none of the pointer's
  · intro slot found
    have aligned := (slot?_eq_some found).1
    have clear := apart slot found
    rw [wordAt_setCodeListPointer moved place aligned (by omega) (by omega)]
    exact carried_of_withTrampoline run found
  · intro slot found
    have aligned := (slot?_eq_some found).1
    have clear := apart slot found
    rw [wordAt_setCodeListPointer moved place (by omega) (by omega) (by omega)]
    exact wayBack_of_withTrampoline run found

end Handler

end CubePatch
