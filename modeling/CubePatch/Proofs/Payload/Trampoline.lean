import CubePatch.Proofs.Instruction
import CubePatch.Proofs.Payload.Handler
import Mathlib.Order.Bounds.Defs

/-!
The instruction that a hook replaces, carried out in the handler.

The handler has a marked slot of two words. The first one takes the replaced instruction, the second
one leads back behind the hook. A return does the same anywhere. A plain branch, absolute or relative,
is written anew for where it led from the hook, so it is the same branch as far as its new word has
room for the way.

The way back starts from an address of its own. A slot in the last word of the address space has
none, which is noticed when the first word is already written.

## Main result

`trampoline_exact`: when a handler takes an instruction and what it then holds, and otherwise what is
wrong and how it is left.
-/
namespace CubePatch.Handler

/-- The slot of a handler: the first aligned mark, with another word behind it. -/
structure IsSlot (handler : Handler) (slot : Nat) : Prop where
  first : IsLeast {offset | HasWordAt handler.payload slotMark offset} slot
  room : slot + 8 ≤ handler.length

theorem slot?_eq_some_iff {handler : Handler} {slot : Nat} :
    handler.slot? = some slot ↔ handler.IsSlot slot := by
  unfold slot?
  constructor
  · intro found
    split at found
    next offset marked =>
      split at found
      next room =>
        cases found
        exact ⟨findWord?_eq_some_iff.mp marked, room⟩
      · cases found
    · cases found
  · rintro ⟨first, room⟩
    rw [findWord?_eq_some_iff.mpr first]
    exact if_pos room

theorem IsSlot.unique {handler : Handler} {slot other : Nat} (one : handler.IsSlot slot)
    (two : handler.IsSlot other) : slot = other :=
  Nat.le_antisymm (one.first.2 two.first.1) (two.first.2 one.first.1)

theorem slot?_eq_none_iff {handler : Handler} :
    handler.slot? = none ↔ ¬ ∃ slot, handler.IsSlot slot := by
  simp only [← slot?_eq_some_iff, Option.eq_none_iff_forall_ne_some, ne_eq, not_exists]

/-- The words that can be moved are the return and those with the opcode of a plain branch. -/
theorem isMovable_iff_opcode (word : UInt32) :
    IsMovable word ↔ word = returnWord ∨ primaryOpcode word = 18 := by
  rw [isMovable_iff]
  simp only [decode?_eq_branch_iff, exists_and_left, exists_eq', and_true]

theorem isMovable_of_movedWord? {source place replaced word : UInt32}
    (moved : movedWord? source place replaced = some word) : IsMovable replaced := by
  rw [isMovable_iff]
  unfold movedWord? at moved
  split at moved
  next returns => exact Or.inl returns
  · split at moved
    next displacement mode link decoded => exact Or.inr ⟨displacement, mode, link, decoded⟩
    · cases moved

/-- A word that stands at `place` for the word `replaced` at `source`: a return is the same word,
and a branch is one with the same link bit, which leads to the same target exactly if the way to it
fits. -/
structure StandsFor (word place replaced source : UInt32) : Prop where
  of_return : replaced = returnWord → word = returnWord
  of_branch : ∀ displacement mode link,
    Instruction.decode? replaced = some (.branch displacement mode link) →
    ∃ way, Instruction.decode? word = some (.branch way .relative link) ∧
      (Instruction.targetFrom place .relative way = Instruction.targetFrom source mode displacement ↔
        Reaches place (Instruction.targetFrom source mode displacement))

theorem standsFor_of_movedWord? {source place replaced word : UInt32}
    (moved : movedWord? source place replaced = some word) :
    StandsFor word place replaced source := by
  unfold movedWord? at moved
  constructor
  · intro returns
    rw [if_pos returns] at moved
    cases moved
    exact returns
  · intro displacement mode link decoded
    -- the return has another opcode, so a branch is never taken for it
    have other : replaced ≠ returnWord := by
      rintro rfl
      have opcode := ((decode?_eq_branch_iff _ _ _ _).mp decoded).1
      exact absurd opcode (by decide)
    rw [if_neg other, decoded] at moved
    cases moved
    obtain ⟨way, read, leads⟩ :=
      decode?_branchWord place (Instruction.targetFrom source mode displacement) link
    refine ⟨way, read, ?_⟩
    rw [leads]
    exact landing_eq_iff place _

/-- A handler with the word for a replaced instruction in its slot and nothing else changed. -/
structure HoldsMoved (handler left : Handler) (hook replaced : UInt32) (slot : Nat) : Prop where
  base_eq : left.base = handler.base
  length_eq : left.length = handler.length
  elsewhere : ∀ position, ¬ (slot ≤ position ∧ position < slot + 4) →
    left.payload[position]? = handler.payload[position]?
  carried : StandsFor (wordAt left.payload slot) (handler.addressOf slot) replaced hook

theorem holdsMoved_patch {handler : Handler} {hook replaced word : UInt32} {slot : Nat}
    (here : handler.IsSlot slot)
    (moved : movedWord? hook (handler.addressOf slot) replaced = some word) :
    handler.HoldsMoved (handler.patch slot (wordBytes word)) hook replaced slot := by
  have room : slot + 4 ≤ handler.length := Nat.le_trans (by omega) here.room
  have stands : wordAt (handler.patch slot (wordBytes word)).payload slot = word :=
    wordAt_of_slice (slice_overwrite_self room)
  refine ⟨rfl, length_patch _ _ _, ?_, ?_⟩
  · intro position outside
    have size := length_wordBytes word
    rw [patch, getElem?_overwrite, if_neg (by omega)]
  · rw [stands]
    exact standsFor_of_movedWord? moved

/-- A handler that carries out the instruction replaced at a hook: both words of the slot are filled
in, and nothing else is changed. -/
structure CarriesOut (handler moved : Handler) (hook replaced : UInt32) (slot : Nat) : Prop where
  base_eq : moved.base = handler.base
  length_eq : moved.length = handler.length
  elsewhere : ∀ position, ¬ (slot ≤ position ∧ position < slot + 8) →
    moved.payload[position]? = handler.payload[position]?
  carried : StandsFor (wordAt moved.payload slot) (handler.addressOf slot) replaced hook
  back : AimsAt (wordAt moved.payload (slot + 4)) (handler.addressOf slot + 4) (hook + 4)

theorem carriesOut_of_withTrampoline {handler moved : Handler} {hook replaced : UInt32} {slot : Nat}
    (here : handler.IsSlot slot) (run : handler.withTrampoline hook replaced = .ok moved) :
    handler.CarriesOut moved hook replaced slot := by
  have found := slot?_eq_some_iff.mpr here
  obtain ⟨offset, word, marked, -, patched⟩ := withTrampoline_eq_patch run
  obtain rfl : offset = slot := Option.some.inj (marked.symm.trans found)
  obtain ⟨base, length⟩ := withTrampoline_eq_ok run
  refine ⟨base, length, ?_, ?_, ?_⟩
  · intro position outside
    have first := length_wordBytes word
    have second := length_wordBytes (branchWord (handler.addressOf offset + 4) (hook + 4) false)
    rw [patched, patch, patch, getElem?_overwrite, if_neg (by omega), getElem?_overwrite,
      if_neg (by omega)]
  · exact standsFor_of_movedWord? (carried_of_withTrampoline run found)
  · rw [wayBack_of_withTrampoline run found]
    exact aimsAt_branchWord _ _

/-- What can come of moving an instruction into a handler that has a slot. -/
theorem trampoline_outcome {handler : Handler} {slot : Nat} (here : handler.IsSlot slot)
    (hook replaced : UInt32) :
    (¬ IsMovable replaced ∧
      trampoline hook replaced handler = .error (.unmovableHook replaced) handler) ∨
    (IsMovable replaced ∧ UInt32.size ≤ (handler.addressOf slot).toNat + 4 ∧
      ∃ left, trampoline hook replaced handler = .error (.overflow .sum) left ∧
        handler.HoldsMoved left hook replaced slot) ∨
    (IsMovable replaced ∧ (handler.addressOf slot).toNat + 4 < UInt32.size ∧
      ∃ moved, trampoline hook replaced handler = .ok () moved ∧
        handler.CarriesOut moved hook replaced slot) := by
  have marked := slot?_eq_some_iff.mpr here
  obtain ⟨missing, -⟩ | ⟨offset, found, outcome⟩ := handler.trampoline_cases hook replaced
  · rw [missing] at marked
    cases marked
  obtain rfl : offset = slot := Option.some.inj (found.symm.trans marked)
  obtain ⟨fixed, run⟩ | ⟨word, moved, ⟨full, run⟩ | ⟨room, run⟩⟩ := outcome
  · refine Or.inl ⟨fun movable => ?_, run⟩
    have some_word := movable hook (handler.addressOf offset)
    rw [fixed] at some_word
    cases some_word
  · exact Or.inr (Or.inl ⟨isMovable_of_movedWord? moved, full, _, run,
      holdsMoved_patch here moved⟩)
  · refine Or.inr (Or.inr ⟨isMovable_of_movedWord? moved, room, _, run, ?_⟩)
    exact carriesOut_of_withTrampoline here (by rw [withTrampoline, run])

/-- An instruction is moved into a handler exactly if the handler has a slot, the instruction is the
return or a plain branch, and the second word of the slot has an address. The handler then carries
it out in its slot. Otherwise it is told what is missing, the slot before all else. The handler stays
as it was where there is no slot or the instruction cannot be moved, and holds the first of its two
words where there is no address for the second one. -/
theorem trampoline_exact (handler : Handler) (hook replaced : UInt32) :
    ((∃ moved, trampoline hook replaced handler = .ok () moved) ↔
      ∃ slot, handler.IsSlot slot ∧ (replaced = returnWord ∨ primaryOpcode replaced = 18) ∧
        (handler.addressOf slot).toNat + 4 < UInt32.size) ∧
    (∀ moved, trampoline hook replaced handler = .ok () moved →
      ∃ slot, handler.IsSlot slot ∧ handler.CarriesOut moved hook replaced slot) ∧
    (∀ left, trampoline hook replaced handler = .error .missingVariableSlot left ↔
      (¬ ∃ slot, handler.IsSlot slot) ∧ left = handler) ∧
    (∀ left, trampoline hook replaced handler = .error (.unmovableHook replaced) left ↔
      (∃ slot, handler.IsSlot slot) ∧ ¬ (replaced = returnWord ∨ primaryOpcode replaced = 18) ∧
        left = handler) ∧
    ((∃ left, trampoline hook replaced handler = .error (.overflow .sum) left) ↔
      ∃ slot, handler.IsSlot slot ∧ (replaced = returnWord ∨ primaryOpcode replaced = 18) ∧
        UInt32.size ≤ (handler.addressOf slot).toNat + 4) ∧
    ∀ left, trampoline hook replaced handler = .error (.overflow .sum) left →
      ∃ slot, handler.IsSlot slot ∧ handler.HoldsMoved left hook replaced slot := by
  rw [← isMovable_iff_opcode]
  by_cases slotted : ∃ slot, handler.IsSlot slot
  · obtain ⟨slot, here⟩ := slotted
    -- there is one slot, so what is said of a slot is said of this one
    have only (P : Nat → Prop) : (∃ other, handler.IsSlot other ∧ P other) ↔ P slot := by
      constructor
      · rintro ⟨other, there, holds⟩
        rwa [here.unique there]
      · exact fun holds => ⟨slot, here, holds⟩
    have slotted : ∃ slot, handler.IsSlot slot := ⟨slot, here⟩
    simp only [only]
    obtain ⟨fixed, run⟩ | ⟨movable, full, after, run, holds⟩ | ⟨movable, room, after, run, holds⟩ :=
      trampoline_outcome here hook replaced
    · simp [run, fixed, slotted, eq_comm]
    · simp [run, movable, full, slotted, holds]
    · simp [run, movable, room, slotted, holds]
  · have run : trampoline hook replaced handler = .error .missingVariableSlot handler := by
      rw [trampoline, slot?_eq_none_iff.mpr slotted]
    have nowhere (P : Nat → Prop) : ¬ ∃ slot, handler.IsSlot slot ∧ P slot :=
      fun ⟨slot, here, _⟩ => slotted ⟨slot, here⟩
    simp [run, slotted, nowhere, eq_comm]

/-- A payload that ends with its slot. -/
def slottedPayload : Bytes :=
  List.replicate 0x100 0 ++ wordBytes slotMark ++ wordBytes 0

/-- A handler whose slot starts with the last word of the address space. -/
def topHandler : Handler :=
  ⟨0xFFFFFEFC, slottedPayload, by decide +kernel⟩

/-- A return can be moved anywhere, but the slot may have no address for its second word. The first
one is written over all the same. -/
theorem trampoline_overflows_at_top :
    ofBytes (wordBytes 0xFFFFFEFC ++ slottedPayload) = .ok topHandler ∧
      topHandler.IsSlot 0x100 ∧
      (∀ moved, trampoline 0x80003100 returnWord topHandler ≠ .ok () moved) ∧
      ∃ left, trampoline 0x80003100 returnWord topHandler = .error (.overflow .sum) left ∧
        left ≠ topHandler := by
  have slot : topHandler.slot? = some 0x100 := by decide +kernel
  have run : trampoline 0x80003100 returnWord topHandler =
      .error (.overflow .sum) (topHandler.patch 0x100 (wordBytes returnWord)) := by
    rw [trampoline, slot]
    rfl
  refine ⟨ofBytes_wordBytes_append _ topHandler.minLength_le, slot?_eq_some_iff.mp slot, ?_, _,
    run, by decide +kernel⟩
  intro moved made
  rw [run] at made
  cases made

/-- An absolute branch with a link is carried out as a relative one. -/
example : movedWord? 0x80000100 0x200 0x48000403 = some 0x48000201 := by decide

end CubePatch.Handler
