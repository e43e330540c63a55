import CubePatch.Buffer

/-!
Words as the bytes they are written as, and what stands in a byte string after writes in place.

A run of writes is described position by position: a byte that some write reached is the one the
last of them put there, every other byte is the old one.
-/
namespace CubePatch

/-! ### Words and their bytes -/

private theorem shiftLeft_mod_word (byte : UInt8) (count : Nat) (few : count ≤ 24) :
    byte.toNat <<< count % 0x100000000 = byte.toNat <<< count := by
  have small := byte.toNat_lt
  apply Nat.mod_eq_of_lt
  calc byte.toNat <<< count
      ≤ byte.toNat <<< 24 := by
        rw [Nat.shiftLeft_eq, Nat.shiftLeft_eq]
        exact Nat.mul_le_mul_left _ (Nat.pow_le_pow_right (by decide) few)
    _ < 0x100000000 := by
        rw [Nat.shiftLeft_eq]
        omega

theorem toNat_joinBytes (first second third fourth : UInt8) :
    (joinBytes first second third fourth).toNat =
      first.toNat * 0x1000000 + second.toNat * 0x10000 + third.toNat * 0x100 + fourth.toNat := by
  have h₂ := second.toNat_lt
  have h₃ := third.toNat_lt
  have h₄ := fourth.toNat_lt
  simp only [joinBytes, UInt32.toNat_or, UInt32.toNat_shiftLeft, UInt8.toNat_toUInt32,
    UInt32.reduceToNat, Nat.reduceMod, Nat.reducePow]
  rw [shiftLeft_mod_word first 24 (by decide), shiftLeft_mod_word second 16 (by decide),
    shiftLeft_mod_word third 8 (by decide), Nat.or_assoc, Nat.or_assoc]
  have low : third.toNat <<< 8 + fourth.toNat < 2 ^ 16 := by
    rw [Nat.shiftLeft_eq]
    omega
  have middle : second.toNat <<< 16 + (third.toNat <<< 8 + fourth.toNat) < 2 ^ 24 := by
    rw [Nat.shiftLeft_eq, Nat.shiftLeft_eq]
    omega
  -- the parts share no bit, so each union is a sum
  rw [← Nat.shiftLeft_add_eq_or_of_lt h₄, ← Nat.shiftLeft_add_eq_or_of_lt low,
    ← Nat.shiftLeft_add_eq_or_of_lt middle]
  simp only [Nat.shiftLeft_eq]
  omega

/-- A word is read back from the bytes it is written as. -/
theorem joinBytes_of_wordBytes (word : UInt32) :
    joinBytes (word >>> 24).toUInt8 (word >>> 16).toUInt8 (word >>> 8).toUInt8 word.toUInt8 =
      word := by
  have small := word.toNat_lt
  apply UInt32.toNat_inj.mp
  simp [toNat_joinBytes, UInt32.toNat_shiftRight, Nat.shiftRight_eq_div_pow]
  omega

theorem wordBytes_joinBytes (first second third fourth : UInt8) :
    wordBytes (joinBytes first second third fourth) = [first, second, third, fourth] := by
  have h₁ := first.toNat_lt
  have h₂ := second.toNat_lt
  have h₃ := third.toNat_lt
  have h₄ := fourth.toNat_lt
  simp [wordBytes, ← UInt8.toNat_inj, toNat_joinBytes, UInt32.toNat_shiftRight,
    Nat.shiftRight_eq_div_pow]
  omega

theorem wordAt_of_slice {bytes : Bytes} {offset : Nat} {word : UInt32}
    (stands : slice bytes offset 4 = wordBytes word) : wordAt bytes offset = word := by
  unfold slice at stands
  unfold wordAt
  generalize bytes.drop offset = tail at stands ⊢
  rcases tail with _ | ⟨a, _ | ⟨b, _ | ⟨c, _ | ⟨d, rest⟩⟩⟩⟩ <;> simp [wordBytes] at stands
  obtain ⟨rfl, rfl, rfl, rfl⟩ := stands
  exact joinBytes_of_wordBytes word

/-- The bytes of a word that stands in a byte string are those that stand there. -/
theorem wordBytes_wordAt {bytes : Bytes} {offset : Nat} (inside : offset + 4 ≤ bytes.length) :
    wordBytes (wordAt bytes offset) = slice bytes offset 4 := by
  have enough : 4 ≤ (bytes.drop offset).length := by rw [List.length_drop]; omega
  simp only [wordAt, slice]
  generalize bytes.drop offset = tail at enough ⊢
  rcases tail with _ | ⟨a, _ | ⟨b, _ | ⟨c, _ | ⟨d, rest⟩⟩⟩⟩ <;> simp at enough
  exact wordBytes_joinBytes a b c d

theorem wordBytes_inj {word other : UInt32} : wordBytes word = wordBytes other ↔ word = other := by
  constructor
  · intro same
    have read (word : UInt32) : wordAt (wordBytes word) 0 = word := joinBytes_of_wordBytes word
    rw [← read word, same, read]
  · rintro rfl
    rfl

theorem getElem?_words (bytes : Bytes) (index : Nat) :
    (words bytes)[index]? =
      if index * 4 + 4 ≤ bytes.length then some (wordAt bytes (index * 4)) else none := by
  fun_induction words bytes generalizing index with
  | case1 first second third fourth rest ih =>
    cases index with
    | zero => simp [wordAt]
    | succ index =>
      have step : wordAt (first :: second :: third :: fourth :: rest) ((index + 1) * 4) =
          wordAt rest (index * 4) := by
        rw [wordAt, wordAt, Nat.add_mul]
        rfl
      rw [List.getElem?_cons_succ, ih, step, List.length_cons, List.length_cons, List.length_cons,
        List.length_cons]
      by_cases inside : index * 4 + 4 ≤ rest.length
      · rw [if_pos inside, if_pos (by omega)]
      · rw [if_neg inside, if_neg (by omega)]
  | case2 bytes short =>
    have few : bytes.length < 4 := by
      rcases bytes with _ | ⟨a, _ | ⟨b, _ | ⟨c, _ | ⟨d, rest⟩⟩⟩⟩
      all_goals first | exact absurd rfl (short a b c d rest) | simp
    rw [if_neg (by omega)]
    rfl

/-! ### Slices -/

theorem length_slice {bytes : Bytes} {offset length : Nat}
    (inside : offset + length ≤ bytes.length) :
    (slice bytes offset length).length = length := by
  simp only [slice, List.length_take, List.length_drop]
  omega

theorem getElem?_slice (bytes : Bytes) (offset length position : Nat) :
    (slice bytes offset length)[position]? =
      if position < length then bytes[offset + position]? else none := by
  simp only [slice, List.getElem?_take, List.getElem?_drop]

theorem slice_congr {bytes others : Bytes} {offset length : Nat}
    (same : ∀ position, offset ≤ position → position < offset + length →
      bytes[position]? = others[position]?) :
    slice bytes offset length = slice others offset length := by
  apply List.ext_getElem?
  intro position
  rw [getElem?_slice, getElem?_slice]
  split
  · exact same _ (by omega) (by omega)
  · rfl

theorem wordAt_slice (bytes : Bytes) (offset : Nat) :
    wordAt (slice bytes offset 4) 0 = wordAt bytes offset := by
  simp only [wordAt, slice, List.drop_zero]
  rcases bytes.drop offset with _ | ⟨a, _ | ⟨b, _ | ⟨c, _ | ⟨d, rest⟩⟩⟩⟩ <;> rfl

theorem wordAt_congr {bytes others : Bytes} {offset : Nat}
    (same : ∀ position, offset ≤ position → position < offset + 4 →
      bytes[position]? = others[position]?) : wordAt bytes offset = wordAt others offset := by
  rw [← wordAt_slice, slice_congr same, wordAt_slice]

/-- Byte strings with the same beginning have the same words in it. -/
theorem wordAt_of_take_eq {bytes others : Bytes} {offset length : Nat}
    (same : bytes.take length = others.take length) (inside : offset + 4 ≤ length) :
    wordAt bytes offset = wordAt others offset := by
  apply wordAt_congr
  intro position lower upper
  have here : (bytes.take length)[position]? = (others.take length)[position]? := by rw [same]
  rwa [List.getElem?_take_of_lt (by omega), List.getElem?_take_of_lt (by omega)] at here

theorem slice_slice {bytes : Bytes} {start length offset count : Nat}
    (inside : offset + count ≤ length) :
    slice (slice bytes start length) offset count = slice bytes (start + offset) count := by
  apply List.ext_getElem?
  intro position
  simp only [getElem?_slice]
  split
  · rw [if_pos (by omega), Nat.add_assoc]
  · rfl

theorem wordAt_slice_of_inside {bytes : Bytes} {start length offset : Nat}
    (inside : offset + 4 ≤ length) :
    wordAt (slice bytes start length) offset = wordAt bytes (start + offset) := by
  rw [← wordAt_slice, slice_slice inside, wordAt_slice]

theorem slice_append_middle (front middle back : Bytes) :
    slice (front ++ middle ++ back) front.length middle.length = middle := by
  simp [slice]

theorem slice_overwrite_self {bytes data : Bytes} {offset : Nat}
    (inside : offset + data.length ≤ bytes.length) :
    slice (overwrite bytes offset data) offset data.length = data := by
  apply List.ext_getElem?
  intro position
  rw [getElem?_slice, getElem?_overwrite]
  by_cases here : position < data.length
  · rw [if_pos here, if_pos (by omega), Nat.add_sub_cancel_left]
  · rw [if_neg here, List.getElem?_eq_none (Nat.le_of_not_lt here)]

theorem slice_overwrite_of_apart {bytes data : Bytes} {offset start length : Nat}
    (apart : start + length ≤ offset ∨ offset + data.length ≤ start) :
    slice (overwrite bytes offset data) start length = slice bytes start length := by
  apply slice_congr
  intro position lower upper
  rw [getElem?_overwrite, if_neg (by omega)]

theorem slice_append_right {bytes more : Bytes} :
    slice (bytes ++ more) bytes.length more.length = more := by
  simp [slice]

theorem take_overwrite_of_le {bytes data : Bytes} {offset length : Nat} (before : length ≤ offset) :
    (overwrite bytes offset data).take length = bytes.take length := by
  have same : slice (overwrite bytes offset data) 0 length = slice bytes 0 length :=
    slice_overwrite_of_apart (Or.inl (by omega))
  simpa [slice] using same

/-! ### Finding a word -/

/-- A word stands at an offset of a byte string that is a multiple of four. -/
def HasWordAt (bytes : Bytes) (word : UInt32) (offset : Nat) : Prop :=
  4 ∣ offset ∧ offset + 4 ≤ bytes.length ∧ wordAt bytes offset = word

instance (bytes : Bytes) (word : UInt32) (offset : Nat) : Decidable (HasWordAt bytes word offset) :=
  inferInstanceAs (Decidable (_ ∧ _ ∧ _))

theorem getElem?_words_eq_some_iff (bytes : Bytes) (word : UInt32) (index : Nat) :
    (words bytes)[index]? = some word ↔ HasWordAt bytes word (index * 4) := by
  have aligned : 4 ∣ index * 4 := Nat.dvd_mul_left 4 index
  rw [getElem?_words, HasWordAt]
  by_cases inside : index * 4 + 4 ≤ bytes.length <;> simp [inside, aligned]

/-- Looking for a word is looking for its number among the whole words. -/
private theorem findWordFrom?_eq (word : UInt32) (start : Nat) (bytes : Bytes) :
    findWordFrom? word start bytes =
      ((words bytes).findIdx? (· = word)).map (start + · * 4) := by
  fun_induction findWordFrom? word start bytes with
  | case1 start first second third fourth rest same =>
    rw [words, List.findIdx?_cons, if_pos (decide_eq_true same)]
    rfl
  | case2 start first second third fourth rest other ih =>
    rw [words, List.findIdx?_cons, if_neg (by simpa using other), ih, Option.map_map]
    congr 1
    funext index
    show start + 4 + index * 4 = start + (index + 1) * 4
    omega
  | case3 start bytes short =>
    rw [words, List.findIdx?_nil, Option.map_none]
    exact short

/-- A word is found at the first of the aligned offsets at which it stands. -/
theorem findWord?_eq_some_iff {word : UInt32} {bytes : Bytes} {offset : Nat} :
    findWord? word bytes = some offset ↔
      HasWordAt bytes word offset ∧ ∀ other, HasWordAt bytes word other → offset ≤ other := by
  rw [findWord?, findWordFrom?_eq, Option.map_eq_some_iff]
  constructor
  · rintro ⟨index, found, rfl⟩
    rw [Nat.zero_add]
    obtain ⟨inside, same, first⟩ := List.findIdx?_eq_some_iff_getElem.mp found
    refine ⟨(getElem?_words_eq_some_iff bytes word index).mp ?_, ?_⟩
    · rw [List.getElem?_eq_getElem inside, of_decide_eq_true same]
    · rintro other ⟨⟨number, rfl⟩, standing⟩
      -- a number in front of the one that was found would have been found instead
      by_cases early : number < index
      · have there := (getElem?_words_eq_some_iff bytes word number).mpr
          ⟨Nat.dvd_mul_left 4 number, Nat.mul_comm 4 number ▸ standing⟩
        obtain ⟨_, here⟩ := List.getElem?_eq_some_iff.mp there
        exact absurd (decide_eq_true here) (first number early)
      · omega
  · rintro ⟨⟨⟨number, rfl⟩, standing⟩, least⟩
    rw [Nat.mul_comm] at standing least ⊢
    have there := (getElem?_words_eq_some_iff bytes word number).mpr
      ⟨Nat.dvd_mul_left 4 number, standing⟩
    obtain ⟨inside, here⟩ := List.getElem?_eq_some_iff.mp there
    refine ⟨number, List.findIdx?_eq_some_iff_getElem.mpr ⟨inside, decide_eq_true here, ?_⟩,
      Nat.zero_add _⟩
    intro earlier before same
    have hit := (getElem?_words_eq_some_iff bytes word earlier).mp
      ((List.getElem?_eq_getElem (Nat.lt_trans before inside)).trans
        (congrArg some (of_decide_eq_true same)))
    have := least _ hit
    omega

theorem findWord?_eq_some {word : UInt32} {bytes : Bytes} {offset : Nat}
    (found : findWord? word bytes = some offset) :
    offset + 4 ≤ bytes.length ∧ wordAt bytes offset = word :=
  (findWord?_eq_some_iff.mp found).1.2

theorem dvd_of_findWord? {word : UInt32} {bytes : Bytes} {offset : Nat}
    (found : findWord? word bytes = some offset) : 4 ∣ offset :=
  (findWord?_eq_some_iff.mp found).1.1

/-! ### Rounding up -/

theorem le_roundUp (number unit : Nat) (positive : 0 < unit) : number ≤ roundUp number unit := by
  have divided := Nat.div_add_mod (number + unit - 1) unit
  have small := Nat.mod_lt (number + unit - 1) positive
  rw [roundUp, Nat.mul_comm]
  omega

theorem length_padTo (unit : Nat) (bytes : Bytes) (positive : 0 < unit) :
    (padTo unit bytes).length = roundUp bytes.length unit := by
  have := le_roundUp bytes.length unit positive
  simp only [padTo, List.length_append, List.length_replicate]
  omega

/-! ### Runs of writes -/

/-- Makes some writes in order, each given by its offset and its bytes. -/
def overwriteAll (bytes : Bytes) (writes : List (Nat × Bytes)) : Bytes :=
  writes.foldl (fun bytes write => overwrite bytes write.1 write.2) bytes

/-- The byte the last write to reach a position puts there. -/
def lastByte? : List (Nat × Bytes) → Nat → Option UInt8
  | [], _ => none
  | (offset, data) :: rest, position =>
    (lastByte? rest position).or (if offset ≤ position then data[position - offset]? else none)

/-- A write shows no byte at a position exactly if it does not reach the position. -/
theorem getElem?_from_eq_none_iff {offset position : Nat} {data : Bytes} :
    (if offset ≤ position then data[position - offset]? else none) = none ↔
      ¬ (offset ≤ position ∧ position < offset + data.length) := by
  split
  · rw [List.getElem?_eq_none_iff]
    omega
  · simp only [true_iff]
    omega

@[simp] theorem overwriteAll_nil (bytes : Bytes) : overwriteAll bytes [] = bytes := rfl

@[simp] theorem overwriteAll_cons (bytes : Bytes) (write : Nat × Bytes)
    (rest : List (Nat × Bytes)) :
    overwriteAll bytes (write :: rest) = overwriteAll (overwrite bytes write.1 write.2) rest := rfl

theorem overwriteAll_append (bytes : Bytes) (first second : List (Nat × Bytes)) :
    overwriteAll bytes (first ++ second) = overwriteAll (overwriteAll bytes first) second :=
  List.foldl_append

@[simp] theorem length_overwriteAll (bytes : Bytes) (writes : List (Nat × Bytes)) :
    (overwriteAll bytes writes).length = bytes.length := by
  induction writes generalizing bytes with
  | nil => rfl
  | cons write rest ih => rw [overwriteAll_cons, ih, length_overwrite]

theorem getElem?_overwriteAll {bytes : Bytes} {writes : List (Nat × Bytes)} {position : Nat}
    (inside : position < bytes.length) :
    (overwriteAll bytes writes)[position]? = (lastByte? writes position).or bytes[position]? := by
  induction writes generalizing bytes with
  | nil => rfl
  | cons write rest ih =>
    rw [overwriteAll_cons, ih (by simpa using inside), lastByte?, Option.or_assoc]
    congr 1
    rw [getElem?_overwrite]
    by_cases reached : write.1 ≤ position ∧ position < write.1 + write.2.length
    · have within : position - write.1 < write.2.length := by omega
      rw [if_pos ⟨reached.1, reached.2, inside⟩, if_pos reached.1,
        List.getElem?_eq_getElem within, Option.some_or]
    · rw [if_neg fun hit => reached ⟨hit.1, hit.2.1⟩, getElem?_from_eq_none_iff.mpr reached,
        Option.none_or]

theorem lastByte?_append (first second : List (Nat × Bytes)) (position : Nat) :
    lastByte? (first ++ second) position =
      (lastByte? second position).or (lastByte? first position) := by
  induction first with
  | nil => simp [lastByte?]
  | cons write rest ih => rw [List.cons_append, lastByte?, ih, lastByte?, Option.or_assoc]

/-- A position has a last byte exactly if some write reaches it. -/
theorem lastByte?_eq_none_iff (writes : List (Nat × Bytes)) (position : Nat) :
    lastByte? writes position = none ↔
      ∀ write ∈ writes, ¬ (write.1 ≤ position ∧ position < write.1 + write.2.length) := by
  induction writes with
  | nil => simp [lastByte?]
  | cons write rest ih =>
    rw [lastByte?, Option.or_eq_none_iff, ih, getElem?_from_eq_none_iff, List.forall_mem_cons,
      and_comm]

/-- The last byte is that of a write which reaches the position, if no write behind it does. -/
theorem lastByte?_of_latest {front back : List (Nat × Bytes)} {offset position : Nat} {data : Bytes}
    (lower : offset ≤ position) (upper : position < offset + data.length)
    (missed : ∀ write ∈ back, ¬ (write.1 ≤ position ∧ position < write.1 + write.2.length)) :
    lastByte? (front ++ (offset, data) :: back) position = data[position - offset]? := by
  have within : position - offset < data.length := by omega
  rw [lastByte?_append, lastByte?, (lastByte?_eq_none_iff back position).mpr missed,
    Option.none_or, if_pos lower, List.getElem?_eq_getElem within, Option.some_or]

theorem getElem?_overwriteAll_of_missed {bytes : Bytes} {writes : List (Nat × Bytes)}
    {position : Nat}
    (missed : ∀ write ∈ writes, ¬ (write.1 ≤ position ∧ position < write.1 + write.2.length)) :
    (overwriteAll bytes writes)[position]? = bytes[position]? := by
  by_cases inside : position < bytes.length
  · rw [getElem?_overwriteAll inside, (lastByte?_eq_none_iff _ _).mpr missed, Option.none_or]
  · have beyond := Nat.le_of_not_lt inside
    rw [List.getElem?_eq_none beyond, List.getElem?_eq_none (by simpa using beyond)]

/-- Making the same writes twice leaves what making them once leaves: a byte that is reached is
decided by the last write that reaches it, both times. -/
theorem overwriteAll_overwriteAll (bytes : Bytes) (writes : List (Nat × Bytes)) :
    overwriteAll (overwriteAll bytes writes) writes = overwriteAll bytes writes := by
  apply List.ext_getElem?
  intro position
  by_cases inside : position < bytes.length
  · have still : position < (overwriteAll bytes writes).length := by rwa [length_overwriteAll]
    rw [getElem?_overwriteAll still, getElem?_overwriteAll inside]
    cases lastByte? writes position <;> rfl
  · have beyond := Nat.le_of_not_lt inside
    rw [List.getElem?_eq_none (by simpa using beyond), List.getElem?_eq_none (by simpa using beyond)]

theorem slice_overwriteAll_of_apart {bytes : Bytes} {writes : List (Nat × Bytes)}
    {start length : Nat}
    (apart : ∀ write ∈ writes,
      start + length ≤ write.1 ∨ write.1 + write.2.length ≤ start) :
    slice (overwriteAll bytes writes) start length = slice bytes start length := by
  induction writes generalizing bytes with
  | nil => rfl
  | cons write rest ih =>
    rw [overwriteAll_cons, ih fun later member => apart later (List.mem_cons_of_mem _ member)]
    exact slice_overwrite_of_apart (apart write List.mem_cons_self)

theorem wordAt_overwriteAll_of_apart {bytes : Bytes} {writes : List (Nat × Bytes)} {offset : Nat}
    (apart : ∀ write ∈ writes, offset + 4 ≤ write.1 ∨ write.1 + write.2.length ≤ offset) :
    wordAt (overwriteAll bytes writes) offset = wordAt bytes offset := by
  rw [← wordAt_slice, slice_overwriteAll_of_apart apart, wordAt_slice]

/-- A write stands at the end if every other one is apart from it. -/
theorem slice_overwriteAll_of_mem {bytes : Bytes} {writes : List (Nat × Bytes)}
    {write : Nat × Bytes} (member : write ∈ writes)
    (inside : write.1 + write.2.length ≤ bytes.length)
    (apart : ∀ other ∈ writes, other = write ∨
      write.1 + write.2.length ≤ other.1 ∨ other.1 + other.2.length ≤ write.1) :
    slice (overwriteAll bytes writes) write.1 write.2.length = write.2 := by
  induction writes generalizing bytes with
  | nil => cases member
  | cons first rest ih =>
    rw [overwriteAll_cons]
    have later := fun other there => apart other (List.mem_cons_of_mem first there)
    -- the last of several equal writes is the one that is not written over
    by_cases again : write ∈ rest
    · exact ih again (by simpa using inside) later
    · obtain rfl : write = first := (List.mem_cons.mp member).resolve_right again
      rw [slice_overwriteAll_of_apart fun other there =>
        (later other there).resolve_left fun same => again (same ▸ there)]
      exact slice_overwrite_self inside

/-- Writes that are apart leave the same in whatever order they are made. -/
theorem overwriteAll_perm {bytes : Bytes} {writes order : List (Nat × Bytes)}
    (same : order.Perm writes)
    (inside : ∀ write ∈ writes, write.1 + write.2.length ≤ bytes.length)
    (apart : ∀ write ∈ writes, ∀ other ∈ writes, other = write ∨
      write.1 + write.2.length ≤ other.1 ∨ other.1 + other.2.length ≤ write.1) :
    overwriteAll bytes order = overwriteAll bytes writes := by
  apply List.ext_getElem?
  intro position
  by_cases reached : ∃ write ∈ writes, write.1 ≤ position ∧ position < write.1 + write.2.length
  · obtain ⟨write, member, lower, upper⟩ := reached
    have one := slice_overwriteAll_of_mem (same.mem_iff.mpr member) (inside write member)
      fun other there => apart write member other (same.mem_iff.mp there)
    have two := slice_overwriteAll_of_mem member (inside write member) (apart write member)
    -- both hold this write as a whole, so they agree on each of its bytes
    have here := congrArg (·[position - write.1]?) (one.trans two.symm)
    simp only [getElem?_slice] at here
    rwa [if_pos (by omega), if_pos (by omega), Nat.add_sub_cancel' lower] at here
  · have missed : ∀ write ∈ writes,
        ¬ (write.1 ≤ position ∧ position < write.1 + write.2.length) :=
      fun write member within => reached ⟨write, member, within⟩
    rw [getElem?_overwriteAll_of_missed missed,
      getElem?_overwriteAll_of_missed fun write member => missed write (same.mem_iff.mp member)]

theorem take_overwriteAll_of_le {bytes : Bytes} {writes : List (Nat × Bytes)} {length : Nat}
    (before : ∀ write ∈ writes, length ≤ write.1) :
    (overwriteAll bytes writes).take length = bytes.take length := by
  induction writes generalizing bytes with
  | nil => rfl
  | cons write rest ih =>
    rw [overwriteAll_cons, ih fun later member => before later (List.mem_cons_of_mem _ member)]
    exact take_overwrite_of_le (before write List.mem_cons_self)

end CubePatch
