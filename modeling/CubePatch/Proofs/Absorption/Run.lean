import CubePatch.Code.Absorption
import CubePatch.Proofs.Image.Access

/-!
What one step of an absorption does, and from it what a whole pass does.

A code outside of every condition is absorbed exactly if it is a static write and each of its writes
lies in one section. Whether it does depends on the sections alone, and no step changes them: so the
fate of a code is decided by the image as it was in the beginning.
-/
namespace CubePatch

/-- The kinds of codes that always write the same. -/
def CodeKind.IsStatic (kind : CodeKind) : Prop :=
  kind ∈ [.fillBytes, .fillHalves, .writeWord, .writeString, .serialWrite, .insertBranch]

instance (kind : CodeKind) : Decidable kind.IsStatic :=
  inferInstanceAs (Decidable (kind ∈ _))

namespace Code

/-- The writes of a static code, in order; none for other codes. -/
def writes (code : Code) : List Write :=
  match code.staticWrites? with
  | .ok (some writes) => writes
  | _ => []

/-- A serial write of values of no known size. -/
def BadSerial (code : Code) : Prop :=
  code.kind = .serialWrite ∧ 2 < (Serial.ofPayload code.payload).size

instance (code : Code) : Decidable code.BadSerial :=
  inferInstanceAs (Decidable (_ ∧ _))

/-- What is told of a serial write that is no good. -/
def serialFault (code : Code) : SerialFault :=
  ⟨code.address, (Serial.ofPayload code.payload).size⟩

/-- A static write of which each part lies in one section of an image. -/
def Absorbable (code : Code) (image : Image) : Prop :=
  code.kind.IsStatic ∧
    ∀ write ∈ code.writes, ∃ area ∈ image.sections, area.Holds write.address write.bytes.length

theorem absorbable_congr (code : Code) {image other : Image}
    (sections : other.sections = image.sections) :
    code.Absorbable other ↔ code.Absorbable image := by
  rw [Absorbable, Absorbable, sections]

/-- The writes of a code are unknown only for a bad serial write, and there are none only for a code
that is not static. -/
theorem staticWrites?_cases (code : Code) :
    (code.BadSerial ∧ code.staticWrites? = .error code.serialFault) ∨
    (¬ code.BadSerial ∧ code.kind.IsStatic ∧ code.staticWrites? = .ok (some code.writes)) ∨
    (¬ code.BadSerial ∧ ¬ code.kind.IsStatic ∧ code.staticWrites? = .ok none) := by
  unfold BadSerial serialFault writes staticWrites?
  cases code.kind <;> simp [CodeKind.IsStatic]
  split <;> simp <;> omega

end Code

/-- The number of open conditions behind some codes. Opcodes 20 to 3F open one, and E0 closes one if
there is one. -/
def openConditions (depth : Nat) : List Code → Nat
  | [] => depth
  | code :: rest =>
    let opcode := code.line.opcode
    openConditions
      (if 0x20 ≤ opcode ∧ opcode ≤ 0x3F then depth + 1
        else if opcode = 0xE0 then depth - 1
        else depth) rest

/-- Each of the 256 opcodes, with one open condition. -/
private theorem depthAfter_one_ofOpcode (opcode : UInt8) :
    depthAfter 1 (.ofOpcode opcode) =
      if 0x20 ≤ opcode ∧ opcode ≤ 0x3F then 2 else if opcode = 0xE0 then 0 else 1 := by
  have each : ∀ value : Fin 256, depthAfter 1 (.ofOpcode (.ofFin value)) =
      if (0x20 : UInt8) ≤ .ofFin value ∧ (.ofFin value : UInt8) ≤ 0x3F then 2
      else if (.ofFin value : UInt8) = 0xE0 then 0 else 1 := by decide +kernel
  exact each opcode.toFin

theorem depthAfter_ofOpcode (depth : Nat) (opcode : UInt8) :
    depthAfter depth (.ofOpcode opcode) =
      if 0x20 ≤ opcode ∧ opcode ≤ 0x3F then depth + 1
      else if opcode = 0xE0 then depth - 1
      else depth := by
  have known := depthAfter_one_ofOpcode opcode
  revert known
  cases CodeKind.ofOpcode opcode <;> simp only [depthAfter] <;> repeat' split
  all_goals simp

theorem openConditions_cons (depth : Nat) (code : Code) (rest : List Code) :
    openConditions depth (code :: rest) = openConditions (depthAfter depth code.kind) rest := by
  rw [openConditions, Code.kind, Line.kind, depthAfter_ofOpcode]

namespace Image

/-- Writes as places in the file and the bytes put there. Writes outside of every section have no
place. -/
def placed (image : Image) (writes : List Write) : List (Nat × Bytes) :=
  writes.filterMap fun write => (image.fileOffset? write.address).map (·, write.bytes)

theorem placed_congr {image other : Image} (sections : other.sections = image.sections) :
    other.placed = image.placed := by
  funext writes
  rw [placed, placed, fileOffset?_congr sections]

theorem placed_append (image : Image) (first second : List Write) :
    image.placed (first ++ second) = image.placed first ++ image.placed second :=
  List.filterMap_append

theorem mem_placed_iff (image : Image) (writes : List Write) (offset : Nat) (data : Bytes) :
    (offset, data) ∈ image.placed writes ↔
      ∃ write ∈ writes, image.fileOffset? write.address = some offset ∧ write.bytes = data := by
  simp only [placed, List.mem_filterMap, Option.map_eq_some_iff, Prod.mk.injEq]
  constructor
  · rintro ⟨write, member, place, located, rfl, rfl⟩
    exact ⟨write, member, located, rfl⟩
  · rintro ⟨write, member, located, rfl⟩
    exact ⟨write, member, offset, located, rfl, rfl⟩

theorem headerSize_le_of_mem_placed {image : Image} (sound : image.WellFormed)
    (writes : List Write) : ∀ place ∈ image.placed writes, headerSize ≤ place.1 := by
  rintro ⟨offset, data⟩ member
  obtain ⟨write, -, located, -⟩ := (mem_placed_iff image writes offset data).mp member
  obtain ⟨area, there, -, rfl⟩ := (fileOffset?_eq_some_iff sound _ _).mp located
  exact Nat.le_trans (sound.behindHeader area there) (Nat.le_add_right _ _)

theorem isMapped_iff {image : Image} (sound : image.WellFormed) (writes : List Write) :
    image.isMapped writes = true ↔
      ∀ write ∈ writes, ∃ area ∈ image.sections,
        area.Holds write.address write.bytes.length := by
  rw [isMapped, List.all_eq_true]
  constructor
  · intro mapped write member
    have granted := mapped write member
    cases found : image.resolveRange write.address write.bytes.length with
    | error fault => rw [found] at granted; cases granted
    | ok area => exact ⟨area, (resolveRange_eq_ok_iff sound _ _ area).mp found⟩
  · intro mapped write member
    obtain ⟨area, held⟩ := mapped write member
    rw [(resolveRange_eq_ok_iff sound _ _ area).mpr held]
    rfl

/-- Writes that lie in sections can all be made, and do what they say at their places. -/
theorem applyWrites_of_mapped {image : Image} (sound : image.WellFormed) (writes : List Write)
    (mapped : ∀ write ∈ writes, ∃ area ∈ image.sections,
      area.Holds write.address write.bytes.length) :
    ∃ after, applyWrites writes image = .ok () after ∧ after.text = image.text ∧
      after.data = image.data ∧
      after.bytes = overwriteAll image.bytes (image.placed writes) := by
  induction writes generalizing image with
  | nil => exact ⟨image, rfl, rfl, rfl, rfl⟩
  | cons write rest ih =>
    obtain ⟨area, member, held⟩ := mapped write List.mem_cons_self
    have made := write_at_of_holds sound member held
    obtain ⟨after, ran, text, data, bytes⟩ :=
      ih (sound.written area write.address write.bytes)
        fun later there => mapped later (List.mem_cons_of_mem _ there)
    refine ⟨after, ?_, text, data, ?_⟩
    · -- the steps of the first write, and then those of the rest
      have split_off : applyWrites (write :: rest) =
          ((do let _ ← seek write.address; Image.write write.bytes : Edit ImageError Unit) >>=
            fun _ => applyWrites rest) := by
        rw [applyWrites, bind_assoc]
      rw [split_off, Edit.bind_apply, made]
      exact ran
    · rw [bytes, bytes_written, placed_congr (sections_written image area _ _)]
      simp only [placed, List.filterMap_cons, fileOffset?_of_mem sound member held.1]
      rfl

end Image

/-! ### One code -/

theorem absorbCode_of_badSerial (code : Code) (image : Image) (bad : code.BadSerial) :
    absorbCode 0 code image = .error (.serial code.serialFault) image := by
  rcases code.staticWrites?_cases with ⟨_, writes⟩ | ⟨good, _⟩ | ⟨good, _⟩
  · simp [absorbCode, writes]
  · exact absurd bad good
  · exact absurd bad good

theorem absorbCode_of_absorbable {code : Code} {image : Image} (sound : image.WellFormed)
    (good : ¬ code.BadSerial) (absorbable : code.Absorbable image) :
    ∃ after, absorbCode 0 code image = .ok .applied after ∧ after.text = image.text ∧
      after.data = image.data ∧
      after.bytes = overwriteAll image.bytes (image.placed code.writes) := by
  obtain ⟨static, mapped⟩ := absorbable
  -- all writes are known to lie in sections before the first of them is made
  obtain ⟨after, made, layout⟩ := Image.applyWrites_of_mapped sound code.writes mapped
  refine ⟨after, ?_, layout⟩
  rcases code.staticWrites?_cases with ⟨bad, _⟩ | ⟨_, _, writes⟩ | ⟨_, other, _⟩
  · exact absurd bad good
  · simp [absorbCode, writes, (Image.isMapped_iff sound _).mpr mapped, made]
  · exact absurd static other

/-- A code that is not absorbed changes nothing. -/
theorem absorbCode_of_not_absorbable {depth : Nat} {code : Code} {image : Image}
    (sound : image.WellFormed) (good : ¬ (depth = 0 ∧ code.BadSerial))
    (other : ¬ (depth = 0 ∧ code.Absorbable image)) :
    ∃ fate, fate ≠ .applied ∧ absorbCode depth code image = .ok fate image := by
  by_cases outside : depth = 0
  · rcases code.staticWrites?_cases with ⟨bad, _⟩ | ⟨_, static, writes⟩ | ⟨_, _, none⟩
    · exact absurd ⟨outside, bad⟩ good
    · have unmapped : ¬ image.isMapped code.writes = true := by
        intro mapped
        exact other ⟨outside, static, (Image.isMapped_iff sound _).mp mapped⟩
      exact ⟨.unmapped, by decide, by simp [absorbCode, outside, writes, unmapped]⟩
    · exact ⟨.kept, by decide, by simp [absorbCode, outside, none]⟩
  · exact ⟨.kept, by decide, by simp [absorbCode, outside]⟩

/-- The bytes a code leaves in an image, by what became of it. -/
def Fate.writes (fate : Fate) (code : Code) : List Write :=
  if fate = .applied then code.writes else []

/-- Everything one step can do: stop at a bad serial write, or decide the fate of the code and make
its writes if it is absorbed. -/
theorem absorbCode_cases {image : Image} (sound : image.WellFormed) (depth : Nat) (code : Code) :
    (depth = 0 ∧ code.BadSerial ∧
      absorbCode depth code image = .error (.serial code.serialFault) image) ∨
    (¬ (depth = 0 ∧ code.BadSerial) ∧ ∃ fate after,
      absorbCode depth code image = .ok fate after ∧
      (fate = .applied ↔ depth = 0 ∧ code.Absorbable image) ∧
      after.text = image.text ∧ after.data = image.data ∧
      after.bytes = overwriteAll image.bytes (image.placed (fate.writes code))) := by
  by_cases bad : depth = 0 ∧ code.BadSerial
  · obtain ⟨rfl, bad⟩ := bad
    exact Or.inl ⟨rfl, bad, absorbCode_of_badSerial code image bad⟩
  · refine Or.inr ⟨bad, ?_⟩
    by_cases absorbed : depth = 0 ∧ code.Absorbable image
    · obtain ⟨rfl, absorbable⟩ := absorbed
      obtain ⟨after, step, layout⟩ :=
        absorbCode_of_absorbable sound (fun serial => bad ⟨rfl, serial⟩) absorbable
      exact ⟨.applied, after, step, by simp [absorbable], layout⟩
    · obtain ⟨fate, other, step⟩ := absorbCode_of_not_absorbable sound bad absorbed
      refine ⟨fate, image, step, by simp [other, absorbed], rfl, rfl, ?_⟩
      rw [Fate.writes, if_neg other]
      rfl

/-- What is known of a code that was absorbed. -/
theorem absorbable_of_applied {image after : Image} (sound : image.WellFormed) {depth : Nat}
    {code : Code} (step : absorbCode depth code image = .ok .applied after) :
    depth = 0 ∧ ¬ code.BadSerial ∧ code.Absorbable image ∧
      after.bytes = overwriteAll image.bytes (image.placed code.writes) := by
  obtain ⟨-, -, failed⟩ | ⟨good, fate, ends, made, absorbed, -, -, bytes⟩ :=
    absorbCode_cases sound depth code
  · rw [step] at failed
    cases failed
  · rw [step] at made
    cases made
    obtain ⟨outside, absorbable⟩ := absorbed.mp rfl
    exact ⟨outside, fun bad => good ⟨outside, bad⟩, absorbable, bytes⟩

/-! ### A whole pass -/

namespace Absorption

/-- The codes that were absorbed, in order. -/
def applied (absorption : Absorption) : List Code :=
  (absorption.fates.filter fun entry => entry.2 = .applied).map (·.1)

def writes (absorption : Absorption) : List Write :=
  absorption.applied.flatMap Code.writes

theorem writes_cons (absorption : Absorption) (code : Code) (fate : Fate) :
    { absorption with fates := (code, fate) :: absorption.fates }.writes =
      fate.writes code ++ absorption.writes := by
  by_cases absorbed : fate = .applied <;> simp [writes, applied, Fate.writes, absorbed]

/-- What a pass over codes comes to, in terms of the image before it. -/
structure Follows (image : Image) (depth : Nat) (codes : List Code) (absorption : Absorption) :
    Prop where
  text : absorption.image.text = image.text
  data : absorption.image.data = image.data
  bytes : absorption.image.bytes = overwriteAll image.bytes (image.placed absorption.writes)
  codes_eq : absorption.fault = none → absorption.fates.map (·.1) = codes
  fate_of : ∀ index code fate, absorption.fates[index]? = some (code, fate) →
    codes[index]? = some code ∧
    ¬ (openConditions depth (codes.take index) = 0 ∧ code.BadSerial) ∧
    (fate = .applied ↔ openConditions depth (codes.take index) = 0 ∧ code.Absorbable image)
  fault_of : ∀ fault, absorption.fault = some fault →
    ∃ code, codes[absorption.fates.length]? = some code ∧
      openConditions depth (codes.take absorption.fates.length) = 0 ∧ code.BadSerial ∧
      fault = .serial code.serialFault

namespace Follows

variable {image : Image} {codes : List Code} {absorption : Absorption}

theorem sections_eq (follows : absorption.Follows image 0 codes) :
    absorption.image.sections = image.sections := by
  rw [Image.sections, Image.sections, follows.text, follows.data]

theorem wellFormed (sound : image.WellFormed) (follows : absorption.Follows image 0 codes) :
    absorption.image.WellFormed := by
  apply sound.of_same_layout follows.sections_eq
  rw [follows.bytes, length_overwriteAll]

end Follows

end Absorption

theorem absorbCodes_of_step {depth : Nat} {code : Code} {image after : Image} {fate : Fate}
    (step : absorbCode depth code image = .ok fate after) (rest : List Code) :
    absorbCodes depth (code :: rest) image =
      { absorbCodes (depthAfter depth code.kind) rest after with
        fates := (code, fate) :: (absorbCodes (depthAfter depth code.kind) rest after).fates } := by
  rw [absorbCodes, step]

/-- The step at a code of a pass, between the passes over the codes up to it and with it. -/
theorem absorbCode_of_fate {depth index : Nat} {codes : List Code} {image : Image} {code : Code}
    {fate : Fate} (there : (absorbCodes depth codes image).fates[index]? = some (code, fate)) :
    absorbCode (openConditions depth (codes.take index)) code
        (absorbCodes depth (codes.take index) image).image =
      .ok fate (absorbCodes depth (codes.take (index + 1)) image).image := by
  induction codes generalizing depth index image with
  | nil => cases there
  | cons first rest ih =>
    cases step : absorbCode depth first image with
    | error fault after =>
      rw [absorbCodes, step] at there
      cases there
    | ok decided after =>
      rw [absorbCodes_of_step step] at there
      cases index with
      | zero =>
        obtain ⟨rfl, rfl⟩ : first = code ∧ decided = fate := by simpa using there
        rw [List.take_succ_cons, absorbCodes_of_step step]
        exact step
      | succ index =>
        rw [List.take_succ_cons, List.take_succ_cons, absorbCodes_of_step step,
          absorbCodes_of_step step, openConditions_cons]
        exact ih there

/-- The pass over codes, by induction on them: every step leaves the sections alone, so what the
rest of the pass says about the image after the step holds of the image before it. -/
theorem absorbCodes_follows {image : Image} (sound : image.WellFormed) (depth : Nat)
    (codes : List Code) : (absorbCodes depth codes image).Follows image depth codes := by
  induction codes generalizing depth image with
  | nil => exact ⟨rfl, rfl, rfl, fun _ => rfl, by simp [absorbCodes], by simp [absorbCodes]⟩
  | cons code rest ih =>
    rcases absorbCode_cases sound depth code with
      ⟨outside, bad, step⟩ | ⟨good, fate, after, step, absorbed, text, data, bytes⟩
    · have run : absorbCodes depth (code :: rest) image =
          ⟨image, [], some (.serial code.serialFault)⟩ := by
        rw [absorbCodes, step]
      rw [run]
      refine ⟨rfl, rfl, rfl, by simp, by simp, ?_⟩
      rintro fault ⟨⟩
      exact ⟨code, rfl, outside, bad, rfl⟩
    · have run := absorbCodes_of_step step rest
      -- the step keeps the layout, so the rest of the pass starts from a sound image
      have sections : after.sections = image.sections := by
        rw [Image.sections, Image.sections, text, data]
      have length : after.bytes.length = image.bytes.length := by
        rw [bytes, length_overwriteAll]
      have later := ih (sound.of_same_layout sections length) (depthAfter depth code.kind)
      rw [run]
      generalize absorbCodes (depthAfter depth code.kind) rest after = tail at later ⊢
      refine ⟨later.text.trans text, later.data.trans data, ?_, ?_, ?_, ?_⟩
      · rw [Absorption.writes_cons, Image.placed_append, overwriteAll_append, ← bytes,
          ← Image.placed_congr sections]
        exact later.bytes
      · intro clean
        rw [List.map_cons, later.codes_eq clean]
      · intro index found decided there
        cases index with
        | zero =>
          simp only [List.getElem?_cons_zero, Option.some.injEq, Prod.mk.injEq] at there
          obtain ⟨rfl, rfl⟩ := there
          exact ⟨rfl, good, absorbed⟩
        | succ index =>
          have known := later.fate_of index found decided there
          rw [Code.absorbable_congr found sections, ← openConditions_cons] at known
          exact known
      · intro fault failed
        have known := later.fault_of fault failed
        rw [← openConditions_cons] at known
        exact known

end CubePatch
