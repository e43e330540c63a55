import CubePatch.Proofs.Absorption.Exactness
import CubePatch.Proofs.Instruction
import Mathlib.Order.Bounds.Defs

/-!
What an absorbed code leaves in the file, in closed form.

A fill puts its value as often as its operand says, a string puts its bytes without their padding,
and a branch puts a word that leads to its operand. The writes of a serial code can overlap, wrap
around the address space and lie in different sections, so there each byte of the file is said to be
that of the last write that covers it.

## Main result

`absorbed_code_acts`: at each code that a pass absorbs, the image in front of the code and the image
behind it are related so.
-/
namespace CubePatch

/-! ### The low bytes of a word -/

/-- The low bytes of a word, most significant first. -/
def lowBytes (width : Nat) (value : UInt32) : Bytes :=
  (List.range width).map fun index => UInt8.ofNat (value.toNat / 256 ^ (width - 1 - index))

@[simp] theorem length_lowBytes (width : Nat) (value : UInt32) :
    (lowBytes width value).length = width := by
  simp [lowBytes]

theorem lowBytes_one (value : UInt32) : lowBytes 1 value = [value.toUInt8] := by
  simp [lowBytes]

theorem lowBytes_two (value : UInt32) : lowBytes 2 value = halfBytes value.toUInt16 := by
  simp [lowBytes, List.range_succ, halfBytes, ← UInt8.toNat_inj, Nat.shiftRight_eq_div_pow]
  omega

theorem lowBytes_four (value : UInt32) : lowBytes 4 value = wordBytes value := by
  simp [lowBytes, List.range_succ, wordBytes, ← UInt8.toNat_inj, Nat.shiftRight_eq_div_pow]

/-- Sizes 0, 1 and 2 of a serial write stand for the low one, two and four bytes. -/
theorem Serial.valueBytes?_eq {size : Nat} (known : size ≤ 2) (value : UInt32) :
    valueBytes? size value = some (lowBytes (2 ^ size) value) := by
  obtain rfl | rfl | rfl : size = 0 ∨ size = 1 ∨ size = 2 := by omega
  · exact congrArg some (lowBytes_one value).symm
  · exact congrArg some (lowBytes_two value).symm
  · exact congrArg some (lowBytes_four value).symm

/-! ### One run of bytes -/

/-- Bytes are put into one section from an address on, each given by its distance from the first.
All other bytes of the file stay. -/
def Image.IsPut (image after : Image) (address : UInt32) (length : Nat)
    (byte : Nat → Option UInt8) : Prop :=
  ∃ area ∈ image.sections, area.Holds address length ∧ ∀ position,
    after.bytes[position]? =
      if area.placeOf address ≤ position ∧ position < area.placeOf address + length then
        byte (position - area.placeOf address)
      else image.bytes[position]?

theorem Image.IsPut.congr {image after : Image} {address : UInt32} {length size : Nat}
    {byte other : Nat → Option UInt8} (put : image.IsPut after address length byte)
    (long : length = size) (same : ∀ distance < size, byte distance = other distance) :
    image.IsPut after address size other := by
  subst long
  obtain ⟨area, member, held, bytes⟩ := put
  refine ⟨area, member, held, fun position => ?_⟩
  rw [bytes position]
  split
  · exact same _ (by omega)
  · rfl

/-- A single write puts its bytes. -/
theorem Image.isPut_of_write {image after : Image} (sound : image.WellFormed) {address : UInt32}
    {data : Bytes} (mapped : ∃ area ∈ image.sections, area.Holds address data.length)
    (made : after.bytes = overwriteAll image.bytes (image.placed [⟨address, data⟩])) :
    image.IsPut after address data.length (data[·]?) := by
  obtain ⟨area, member, held⟩ := mapped
  have inside := (place_in_file sound member held).2
  refine ⟨area, member, held, fun position => ?_⟩
  simp only [placed, List.filterMap_cons, List.filterMap_nil,
    fileOffset?_of_mem sound member held.1, Option.map_some, overwriteAll_cons,
    overwriteAll_nil] at made
  rw [made, getElem?_overwrite]
  by_cases here : area.placeOf address ≤ position ∧ position < area.placeOf address + data.length
  · rw [if_pos here, if_pos ⟨here.1, here.2, by omega⟩]
  · rw [if_neg here, if_neg fun hit => here ⟨hit.1, hit.2.1⟩]

/-- A pattern that is repeated shows again after each of its lengths. -/
theorem getElem?_flatten_replicate (pattern : Bytes) (count : Nat) {distance : Nat}
    (inside : distance < pattern.length * count) :
    (List.replicate count pattern).flatten[distance]? = pattern[distance % pattern.length]? := by
  induction count generalizing distance with
  | zero => omega
  | succ count ih =>
    rw [List.replicate_succ, List.flatten_cons]
    rw [Nat.mul_succ] at inside
    by_cases first : distance < pattern.length
    · rw [List.getElem?_append_left first, Nat.mod_eq_of_lt first]
    · have behind := Nat.le_of_not_lt first
      rw [List.getElem?_append_right behind, ih (by omega), ← Nat.mod_eq_sub_mod behind]

/-! ### Serial writes -/

namespace Code

/-- The control word of a serial write. From the top it holds the size in four bits, the number of
repetitions in twelve and the address step in sixteen. -/
def control (code : Code) : Nat :=
  (wordAt code.payload 0).toNat

def serialWidth (code : Code) : Nat :=
  2 ^ (code.control / 2 ^ 28)

def lastIndex (code : Code) : Nat :=
  code.control / 2 ^ 16 % 2 ^ 12

/-- One of the writes of a serial code, counted from zero. -/
def serialWrite (code : Code) (index : Nat) : Write where
  address := code.address + UInt32.ofNat (index * (code.control % 2 ^ 16))
  bytes := lowBytes code.serialWidth
    (code.operand + UInt32.ofNat (index * (wordAt code.payload 4).toNat))

end Code

namespace Serial

theorem ofNat_succ_mul (index : Nat) (step : UInt32) :
    UInt32.ofNat ((index + 1) * step.toNat) = step + UInt32.ofNat (index * step.toNat) := by
  rw [Nat.succ_mul, UInt32.ofNat_add, UInt32.ofNat_toNat, UInt32.add_comm]

/-- Advancing address and value step by step comes to adding the steps as often at once. -/
theorem writesFrom_eq_map {serial : Serial} (known : serial.size ≤ 2) (count : Nat)
    (address value : UInt32) :
    serial.writesFrom count address value = (List.range count).map fun index =>
      ⟨address + UInt32.ofNat (index * serial.addressStep.toNat),
        lowBytes (2 ^ serial.size)
          (value + UInt32.ofNat (index * serial.valueStep.toNat))⟩ := by
  -- on the number of writes, from every address and value: the first write moves both of them on
  induction count generalizing address value with
  | zero => rfl
  | succ count ih =>
    rw [writesFrom, valueBytes?_eq known, ih, List.range_succ_eq_map, List.map_cons, List.map_map]
    congr 1
    · simp
    · apply List.map_congr_left
      intro index _
      simp only [Function.comp_apply, ofNat_succ_mul, UInt32.add_assoc]

theorem size_ofPayload (payload : Bytes) :
    (ofPayload payload).size = (wordAt payload 0).toNat / 2 ^ 28 := by
  show (wordAt payload 0 >>> 28).toNat = _
  rw [UInt32.toNat_shiftRight, Nat.shiftRight_eq_div_pow]
  rfl

theorem repeats_ofPayload (payload : Bytes) :
    (ofPayload payload).repeats = (wordAt payload 0).toNat / 2 ^ 16 % 2 ^ 12 := by
  show ((wordAt payload 0 >>> 16) &&& 0xFFF).toNat = _
  rw [UInt32.toNat_and, UInt32.toNat_shiftRight, Nat.shiftRight_eq_div_pow,
    ← Nat.and_two_pow_sub_one_eq_mod]
  rfl

theorem toNat_addressStep_ofPayload (payload : Bytes) :
    (ofPayload payload).addressStep.toNat = (wordAt payload 0).toNat % 2 ^ 16 := by
  show (wordAt payload 0 &&& 0xFFFF).toNat = _
  rw [UInt32.toNat_and, ← Nat.and_two_pow_sub_one_eq_mod]
  rfl

end Serial

theorem Code.writes_of_serial {code : Code} (serial : code.kind = .serialWrite)
    (known : code.control / 2 ^ 28 ≤ 2) :
    code.writes = (List.range (code.lastIndex + 1)).map code.serialWrite := by
  have size := Serial.size_ofPayload code.payload
  have fits : (Serial.ofPayload code.payload).size ≤ 2 := Nat.le_trans (Nat.le_of_eq size) known
  have made : code.staticWrites? = .ok (some ((Serial.ofPayload code.payload).writesFrom
      ((Serial.ofPayload code.payload).repeats + 1) code.address code.operand)) := by
    rw [staticWrites?, serial]
    exact if_pos fits
  rw [writes, made]
  dsimp only
  rw [Serial.writesFrom_eq_map fits, Serial.repeats_ofPayload, size,
    Serial.toNat_addressStep_ofPayload]
  rfl

/-! ### Runs of writes -/

namespace Image

/-- The bytes of a write reach a position of the file. -/
def Covers (image : Image) (write : Write) (position : Nat) : Prop :=
  ∃ place, image.fileOffset? write.address = some place ∧ place ≤ position ∧
    position < place + write.bytes.length

section Run

variable {image after : Image} {writes : List Write}
  (made : after.bytes = overwriteAll image.bytes (image.placed writes))

include made

/-- A byte is that of the last write that covers it. -/
theorem getElem?_of_latest (sound : image.WellFormed) {index : Nat} {write : Write}
    (there : writes[index]? = some write)
    (mapped : ∃ area ∈ image.sections, area.Holds write.address write.bytes.length)
    {position place : Nat} (located : image.fileOffset? write.address = some place)
    (covers : image.Covers write position)
    (latest : ∀ later other, index < later → writes[later]? = some other →
      ¬ image.Covers other position) :
    after.bytes[position]? = write.bytes[position - place]? := by
  obtain ⟨_, same, lower, upper⟩ := covers
  obtain rfl : place = _ := Option.some.inj (located.symm.trans same)
  have inside : position < image.bytes.length := by
    obtain ⟨area, member, held⟩ := mapped
    rw [fileOffset?_of_mem sound member held.1, Option.some.injEq] at located
    have := (place_in_file sound member held).2
    omega
  have missed : ∀ put ∈ image.placed (writes.drop (index + 1)),
      ¬ (put.1 ≤ position ∧ position < put.1 + put.2.length) := by
    rintro ⟨offset, data⟩ put ⟨from_offset, to_end⟩
    obtain ⟨other, member, found, rfl⟩ := (mem_placed_iff image _ _ _).mp put
    obtain ⟨distance, behind⟩ := List.getElem?_of_mem member
    rw [List.getElem?_drop] at behind
    exact latest _ other (by omega) behind ⟨offset, found, from_offset, to_end⟩
  -- the write stands between those it may run over and those that leave the byte to it
  obtain ⟨short, rfl⟩ := List.getElem?_eq_some_iff.mp there
  have parts : writes.take index ++ writes[index] :: writes.drop (index + 1) = writes := by
    rw [← List.drop_eq_getElem_cons short, List.take_append_drop]
  have puts : image.placed writes = image.placed (writes.take index) ++
      (place, writes[index].bytes) :: image.placed (writes.drop (index + 1)) :=
    calc image.placed writes
      _ = image.placed (writes.take index ++ writes[index] :: writes.drop (index + 1)) := by
        rw [parts]
      _ = _ := by
        rw [placed_append]
        simp only [placed, List.filterMap_cons, located, Option.map_some]
  rw [made, getElem?_overwriteAll inside, puts, lastByte?_of_latest lower upper missed,
    List.getElem?_eq_getElem (show position - place < writes[index].bytes.length by omega),
    Option.some_or]

theorem getElem?_of_uncovered {position : Nat}
    (uncovered : ∀ write ∈ writes, ¬ image.Covers write position) :
    after.bytes[position]? = image.bytes[position]? := by
  rw [made]
  apply getElem?_overwriteAll_of_missed
  rintro ⟨offset, data⟩ put ⟨lower, upper⟩
  obtain ⟨write, member, located, rfl⟩ := (mem_placed_iff image _ _ _).mp put
  exact uncovered write member ⟨offset, located, lower, upper⟩

end Run

end Image

/-! ### What a code does -/

/-- The effect of a serial write. Each of its writes lies in a section, they are made in order, and
what they leave of each other is the last of them at every byte. -/
structure Code.RunsSerially (code : Code) (image after : Image) : Prop where
  known : code.control / 2 ^ 28 ≤ 2
  held : ∀ index ≤ code.lastIndex, ∃ area ∈ image.sections,
    area.Holds (code.serialWrite index).address code.serialWidth
  in_order : after.bytes = overwriteAll image.bytes
    (image.placed ((List.range (code.lastIndex + 1)).map code.serialWrite))
  latest : ∀ position index,
    IsGreatest {index | index ≤ code.lastIndex ∧
      image.Covers (code.serialWrite index) position} index →
    ∀ place, image.fileOffset? (code.serialWrite index).address = some place →
      after.bytes[position]? = (code.serialWrite index).bytes[position - place]?
  untouched : ∀ position,
    (∀ index ≤ code.lastIndex, ¬ image.Covers (code.serialWrite index) position) →
    after.bytes[position]? = image.bytes[position]?

/-- The effect of a fill. The low bytes of the operand are put back to back, once more than its upper
half says. -/
def Code.Fills (width : Nat) (code : Code) (image after : Image) : Prop :=
  image.IsPut after code.address (width * (code.operand.toNat / 2 ^ 16 + 1)) fun distance =>
    (lowBytes width code.operand)[distance % width]?

/-- The effect of a static code on an image. Other codes have none. -/
def Code.ActsOn (code : Code) (image after : Image) : Prop :=
  match code.kind with
  | .fillBytes => code.Fills 1 image after
  | .fillHalves => code.Fills 2 image after
  | .writeWord => image.IsPut after code.address 4 ((lowBytes 4 code.operand)[·]?)
  | .writeString =>
    code.operand.toNat ≤ code.payload.length ∧
      image.IsPut after code.address code.operand.toNat (code.payload[·]?)
  | .serialWrite => code.RunsSerially image after
  | .insertBranch => ∃ word, AimsAt word code.address code.operand ∧
      image.IsPut after code.address 4 ((lowBytes 4 word)[·]?)
  | _ => False

theorem Code.runsSerially {code : Code} {image after : Image} (sound : image.WellFormed)
    (serial : code.kind = .serialWrite) (good : ¬ code.BadSerial)
    (mapped : ∀ write ∈ code.writes, ∃ area ∈ image.sections,
      area.Holds write.address write.bytes.length)
    (made : after.bytes = overwriteAll image.bytes (image.placed code.writes)) :
    code.RunsSerially image after := by
  have known : code.control / 2 ^ 28 ≤ 2 := by
    have size := Serial.size_ofPayload code.payload
    exact Nat.le_trans (Nat.le_of_eq size.symm) (Nat.le_of_not_lt fun big => good ⟨serial, big⟩)
  rw [code.writes_of_serial serial known] at mapped made
  have there {index : Nat} (inside : index ≤ code.lastIndex) :
      ((List.range (code.lastIndex + 1)).map code.serialWrite)[index]? =
        some (code.serialWrite index) := by
    rw [List.getElem?_map, List.getElem?_range (by omega), Option.map_some]
  have held {index : Nat} (inside : index ≤ code.lastIndex) :=
    mapped _ (List.mem_of_getElem? (there inside))
  refine ⟨known, ?_, made, ?_, ?_⟩
  · intro index inside
    simpa [serialWrite] using held inside
  · rintro position index ⟨⟨inside, covers⟩, greatest⟩ place located
    apply Image.getElem?_of_latest made sound (there inside) (held inside) located covers
    -- a later write that covers the byte would have a number above the greatest
    intro later other behind found covered
    obtain ⟨short, rfl⟩ := List.getElem?_eq_some_iff.mp found
    rw [List.getElem_map, List.getElem_range] at covered
    have in_range : later ≤ code.lastIndex := by
      simpa [Nat.lt_succ_iff] using short
    exact absurd (greatest ⟨in_range, covered⟩) (Nat.not_le_of_lt behind)
  · intro position uncovered
    apply Image.getElem?_of_uncovered made
    rintro _ member
    obtain ⟨index, in_range, rfl⟩ := List.mem_map.mp member
    exact uncovered index (by simpa [Nat.lt_succ_iff] using in_range)

theorem Code.fillCount_eq (code : Code) : code.fillCount = code.operand.toNat / 2 ^ 16 + 1 := by
  rw [fillCount, UInt32.toNat_shiftRight, Nat.shiftRight_eq_div_pow]
  rfl

section Single

variable {code : Code} {image after : Image} (sound : image.WellFormed)
  (mapped : ∀ write ∈ code.writes, ∃ area ∈ image.sections,
    area.Holds write.address write.bytes.length)
  (made : after.bytes = overwriteAll image.bytes (image.placed code.writes))

include sound mapped made

theorem Code.isPut_of_single {data : Bytes} (single : code.writes = [⟨code.address, data⟩]) :
    image.IsPut after code.address data.length (data[·]?) := by
  rw [single] at mapped made
  exact Image.isPut_of_write sound (mapped _ List.mem_cons_self) made

theorem Code.isPut_of_word {word : UInt32}
    (single : code.writes = [⟨code.address, wordBytes word⟩]) :
    image.IsPut after code.address 4 ((lowBytes 4 word)[·]?) := by
  rw [lowBytes_four]
  exact code.isPut_of_single sound mapped made single

theorem Code.fills_of_single {width : Nat}
    (single : code.writes = [⟨code.address,
      (List.replicate code.fillCount (lowBytes width code.operand)).flatten⟩]) :
    code.Fills width image after := by
  have put := code.isPut_of_single sound mapped made single
  apply put.congr
  · rw [List.length_flatten, List.map_replicate, List.sum_replicate_nat, length_lowBytes,
      code.fillCount_eq, Nat.mul_comm]
  · intro distance inside
    have near : distance < (lowBytes width code.operand).length * code.fillCount := by
      rwa [length_lowBytes, code.fillCount_eq]
    rw [getElem?_flatten_replicate _ _ near, length_lowBytes]

end Single

/-- A string has at least as many bytes behind its line as are written. -/
theorem Code.operand_le_length_payload {code : Code} (string : code.kind = .writeString) :
    code.operand.toNat ≤ code.payload.length := by
  have kind : code.line.kind = .writeString := string
  rw [code.length_payload, Line.payloadLength, kind]
  exact le_roundUp _ 8 (by decide)

/-- A code that is absorbed has its effect. -/
theorem Code.actsOn {code : Code} {image after : Image} (sound : image.WellFormed)
    (good : ¬ code.BadSerial) (absorbable : code.Absorbable image)
    (made : after.bytes = overwriteAll image.bytes (image.placed code.writes)) :
    code.ActsOn image after := by
  obtain ⟨static, mapped⟩ := absorbable
  unfold ActsOn
  cases kind : code.kind with
  | fillBytes =>
    apply code.fills_of_single sound mapped made
    rw [lowBytes_one, List.flatten_replicate_singleton, writes, staticWrites?, kind]
  | fillHalves =>
    apply code.fills_of_single sound mapped made
    rw [lowBytes_two, writes, staticWrites?, kind]
  | writeWord =>
    apply code.isPut_of_word sound mapped made
    rw [writes, staticWrites?, kind]
  | writeString =>
    have enough := code.operand_le_length_payload kind
    have single : code.writes = [⟨code.address, code.payload.take code.operand.toNat⟩] := by
      rw [writes, staticWrites?, kind]
    have put := code.isPut_of_single sound mapped made single
    refine ⟨enough, put.congr ?_ ?_⟩
    · rw [List.length_take, Nat.min_eq_left enough]
    · intro distance inside
      exact List.getElem?_take_of_lt inside
  | serialWrite => exact code.runsSerially sound kind good mapped made
  | insertBranch =>
    refine ⟨_, aimsAt_branchWord code.address code.operand, ?_⟩
    apply code.isPut_of_word sound mapped made
    rw [writes, staticWrites?, kind]
  | _ => simp [CodeKind.IsStatic, kind] at static

/-- At a code that a pass over a list absorbs, no condition is open, and between the image in front
of the code and the image behind it stands the effect of the code. -/
theorem absorbed_code_acts {image : Image} (sound : image.WellFormed) (list : CodeList)
    {index : Nat} {code : Code}
    (absorbed : (list.absorb image).fates[index]? = some (code, .applied)) :
    let before := (absorbCodes 0 (list.codes.take index) image).image
    let after := (absorbCodes 0 (list.codes.take (index + 1)) image).image
    list.codes[index]? = some code ∧ openConditions 0 (list.codes.take index) = 0 ∧
      absorbCode 0 code before = .ok .applied after ∧ code.ActsOn before after := by
  intro before after
  obtain ⟨there, -, decided⟩ := (absorbCodes_follows sound 0 list.codes).fate_of index _ _ absorbed
  obtain ⟨outside, -⟩ := decided.mp rfl
  -- the codes in front may have written the image, but it is as sound as it was for the first one
  have sound_before : before.WellFormed :=
    (absorbCodes_follows sound 0 (list.codes.take index)).wellFormed sound
  have step : absorbCode 0 code before = .ok .applied after := by
    rw [← outside]
    exact absorbCode_of_fate absorbed
  refine ⟨there, outside, step, ?_⟩
  obtain ⟨-, good, absorbable, bytes⟩ := absorbable_of_applied sound_before step
  exact code.actsOn sound_before good absorbable bytes

/-- Four halfwords at the start of the small image, of which each begins in the middle of the one
before. -/
def steppingCode : Code :=
  ⟨⟨0x08003100, 0x00001111⟩, [0x10, 0x03, 0x00, 0x01, 0x00, 0x00, 0x11, 0x11], by decide,
    by decide⟩

/-- The halfwords behind a word, whose first byte they run over. -/
def steppingCodes : CodeList :=
  .ofCodes [⟨⟨0x04003104, 0x55555555⟩, [], by decide, by decide⟩, steppingCode]

theorem absorbed_code_acts_steppingCodes :
    smallImage.WellFormed ∧
    (steppingCodes.absorb smallImage).fates[1]? = some (steppingCode, .applied) ∧
    let before := (absorbCodes 0 (steppingCodes.codes.take 1) smallImage).image
    let after := (absorbCodes 0 (steppingCodes.codes.take 2) smallImage).image
    slice after.bytes 0x100 8 = [0x11, 0x22, 0x33, 0x44, 0x44, 0x55, 0x55, 0x55] ∧
    steppingCodes.codes[1]? = some steppingCode ∧ openConditions 0 (steppingCodes.codes.take 1) = 0 ∧
      absorbCode 0 steppingCode before = .ok .applied after ∧ steppingCode.ActsOn before after := by
  have sound := Image.wellFormed_of_ofBytes ofBytes_smallFile
  have absorbed : (steppingCodes.absorb smallImage).fates[1]? = some (steppingCode, .applied) := by
    decide +kernel
  exact ⟨sound, absorbed, by decide +kernel, absorbed_code_acts sound steppingCodes absorbed⟩

end CubePatch
