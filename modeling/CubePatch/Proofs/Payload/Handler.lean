import CubePatch.Payload.Handler
import CubePatch.Proofs.Bytes

/-!
What is filled into a handler.

The replaced instruction and the way back take two words from the slot on. The address of the code
list takes the lower halves of two other words. All of these are aligned, so what is filled in
second only reaches the first if it is the very same word.
-/
namespace CubePatch.Handler

/-- A handler is read from the address it is made for, followed by its program. -/
theorem ofBytes_wordBytes_append (base : UInt32) {payload : Bytes}
    (enough : minHandlerLength ≤ payload.length) :
    ofBytes (wordBytes base ++ payload) = .ok ⟨base, payload, enough⟩ := by
  simp only [wordBytes, List.cons_append, List.nil_append, ofBytes, joinBytes_of_wordBytes,
    dif_pos enough]

theorem slot?_eq_some {handler : Handler} {slot : Nat} (found : handler.slot? = some slot) :
    4 ∣ slot ∧ slot + 8 ≤ handler.length := by
  unfold slot? at found
  split at found
  next offset marked =>
    split at found
    next room =>
      cases found
      exact ⟨dvd_of_findWord? marked, room⟩
    · cases found
  · cases found

/-- A word can be carried out elsewhere, wherever it is taken from and wherever it is moved. -/
def IsMovable (word : UInt32) : Prop :=
  ∀ source target, (movedWord? source target word).isSome = true

/-- The words that can be moved are the return and plain branches. -/
theorem isMovable_iff (word : UInt32) :
    IsMovable word ↔ word = returnWord ∨
      ∃ displacement mode link,
        Instruction.decode? word = some (.branch displacement mode link) := by
  unfold IsMovable movedWord?
  by_cases returns : word = returnWord
  · simp [returns]
  · simp only [returns, false_or]
    cases Instruction.decode? word with
    | none => simp
    | some instruction => cases instruction <;> simp

/-- What can come of moving an instruction: there is no slot, the word cannot be moved, there is no
address behind the slot, or both words are filled in. -/
theorem trampoline_cases (handler : Handler) (hook replaced : UInt32) :
    (handler.slot? = none ∧
      trampoline hook replaced handler = .error .missingVariableSlot handler) ∨
    ∃ slot, handler.slot? = some slot ∧
      ((movedWord? hook (handler.addressOf slot) replaced = none ∧
        trampoline hook replaced handler = .error (.unmovableHook replaced) handler) ∨
      ∃ word, movedWord? hook (handler.addressOf slot) replaced = some word ∧
        ((UInt32.size ≤ (handler.addressOf slot).toNat + 4 ∧
          trampoline hook replaced handler =
            .error (.overflow .sum) (handler.patch slot (wordBytes word))) ∨
        ((handler.addressOf slot).toNat + 4 < UInt32.size ∧
          trampoline hook replaced handler =
            .ok () ((handler.patch slot (wordBytes word)).patch (slot + 4)
              (wordBytes (branchWord (handler.addressOf slot + 4) (hook + 4) false)))))) := by
  unfold trampoline
  cases found : handler.slot? with
  | none => exact Or.inl ⟨rfl, rfl⟩
  | some slot =>
    refine Or.inr ⟨slot, rfl, ?_⟩
    dsimp only
    cases moved : movedWord? hook (handler.addressOf slot) replaced with
    | none => exact Or.inl ⟨rfl, rfl⟩
    | some word =>
      refine Or.inr ⟨word, rfl, ?_⟩
      obtain room | full := Nat.lt_or_ge ((handler.addressOf slot).toNat + 4) UInt32.size
      · exact Or.inr ⟨room, by rw [checkedSum_of_lt room]⟩
      · exact Or.inl ⟨full, by rw [checkedSum_of_le full]⟩

/-- A handler with a trampoline holds the moved instruction in its slot and, behind it, the branch
to what follows the hook. -/
theorem withTrampoline_eq_patch {handler moved : Handler} {hook replaced : UInt32}
    (run : handler.withTrampoline hook replaced = .ok moved) :
    ∃ slot word, handler.slot? = some slot ∧
      movedWord? hook (handler.addressOf slot) replaced = some word ∧
      moved = (handler.patch slot (wordBytes word)).patch (slot + 4)
        (wordBytes (branchWord (handler.addressOf slot + 4) (hook + 4) false)) := by
  unfold withTrampoline at run
  obtain ⟨-, failed⟩ | ⟨slot, found, ⟨-, failed⟩ | ⟨word, movable, ⟨-, failed⟩ | ⟨-, made⟩⟩⟩ :=
    handler.trampoline_cases hook replaced
  · rw [failed] at run
    cases run
  · rw [failed] at run
    cases run
  · rw [failed] at run
    cases run
  · rw [made] at run
    cases run
    exact ⟨slot, word, found, movable, rfl⟩

theorem withTrampoline_eq_error {handler : Handler} {hook replaced : UInt32}
    {fault : PayloadError} (run : handler.withTrampoline hook replaced = .error fault) :
    fault = .missingVariableSlot ∨ fault = .unmovableHook replaced ∧ ¬ IsMovable replaced ∨
      fault = .overflow .sum ∧
        ∃ slot, handler.slot? = some slot ∧ UInt32.size ≤ (handler.addressOf slot).toNat + 4 := by
  unfold withTrampoline at run
  obtain ⟨-, failed⟩ | ⟨slot, found, ⟨fixed, failed⟩ | ⟨word, -, ⟨full, failed⟩ | ⟨-, made⟩⟩⟩ :=
    handler.trampoline_cases hook replaced
  · rw [failed] at run
    cases run
    exact Or.inl rfl
  · rw [failed] at run
    cases run
    refine Or.inr (Or.inl ⟨rfl, fun movable => ?_⟩)
    have some_word := movable hook (handler.addressOf slot)
    rw [fixed] at some_word
    cases some_word
  · rw [failed] at run
    cases run
    exact Or.inr (Or.inr ⟨rfl, slot, found, full⟩)
  · rw [made] at run
    cases run

/-- Moving an instruction into a handler leaves its place and its length. -/
theorem withTrampoline_eq_ok {handler moved : Handler} {hook replaced : UInt32}
    (run : handler.withTrampoline hook replaced = .ok moved) :
    moved.base = handler.base ∧ moved.length = handler.length := by
  obtain ⟨slot, word, -, -, rfl⟩ := withTrampoline_eq_patch run
  exact ⟨rfl, by rw [length_patch, length_patch]⟩

theorem wayBack_of_withTrampoline {handler moved : Handler} {hook replaced : UInt32} {slot : Nat}
    (run : handler.withTrampoline hook replaced = .ok moved) (found : handler.slot? = some slot) :
    wordAt moved.payload (slot + 4) =
      branchWord (handler.addressOf slot + 4) (hook + 4) false := by
  obtain ⟨offset, word, marked, -, rfl⟩ := withTrampoline_eq_patch run
  -- the slot is looked for in the handler as it was, before it is written over
  obtain rfl : offset = slot := Option.some.inj (marked.symm.trans found)
  have room : offset + 8 ≤ (handler.patch offset (wordBytes word)).length := by
    rw [length_patch]
    exact (slot?_eq_some found).2
  exact wordAt_of_slice (slice_overwrite_self room)

/-- The word in the slot is the one that was moved. -/
theorem carried_of_withTrampoline {handler moved : Handler} {hook replaced : UInt32} {slot : Nat}
    (run : handler.withTrampoline hook replaced = .ok moved) (found : handler.slot? = some slot) :
    movedWord? hook (handler.addressOf slot) replaced = some (wordAt moved.payload slot) := by
  obtain ⟨offset, word, marked, movable, rfl⟩ := withTrampoline_eq_patch run
  obtain rfl : offset = slot := Option.some.inj (marked.symm.trans found)
  have room : offset + 4 ≤ handler.length := by
    have := (slot?_eq_some found).2
    omega
  rw [movable]
  -- the way back is written behind the word
  have stands : slice ((handler.patch offset (wordBytes word)).patch (offset + 4)
      (wordBytes (branchWord (handler.addressOf offset + 4) (hook + 4) false))).payload offset 4 =
        wordBytes word := by
    unfold patch
    rw [slice_overwrite_of_apart (Or.inl (Nat.le_refl _))]
    exact slice_overwrite_self room
  rw [wordAt_of_slice stands]

@[simp] theorem length_setCodeListPointer (handler : Handler) (address : UInt32) :
    (handler.setCodeListPointer address).length = handler.length := by
  rw [setCodeListPointer, length_patch, length_patch]

/-- Aiming a handler at a code list leaves all words but the two that load the address. -/
theorem wordAt_setCodeListPointer (handler : Handler) (address : UInt32) {offset : Nat}
    (aligned : 4 ∣ offset) (upper : offset ≠ pointerOffset) (lower : offset ≠ pointerOffset + 4) :
    wordAt (handler.setCodeListPointer address).payload offset = wordAt handler.payload offset := by
  unfold pointerOffset at upper lower
  apply wordAt_congr
  intro position first last
  unfold setCodeListPointer patch pointerOffset
  -- the halves are the last two bytes of their words, which start at multiples of four
  have upper_half := length_halfBytes (upperHalf address)
  have lower_half := length_halfBytes (lowerHalf address)
  rw [getElem?_overwrite, if_neg (by omega), getElem?_overwrite, if_neg (by omega)]

end CubePatch.Handler
