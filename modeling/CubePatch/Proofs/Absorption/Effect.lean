import CubePatch.Proofs.Absorption.Exactness
import CubePatch.Proofs.Image.Memory

/-!
When absorbing codes ahead of time has the effect of running them.

Codes that are absorbed act before all codes that remain, and they act on the file instead of the
memory. The two ways to get a memory, loading the image and running the whole list or loading the
image after the absorption and running what remains, agree exactly if neither matters: if no
remaining code is overtaken by an absorbed one that it overlaps, and no absorbed code reaches a
second address through bytes of the file that two sections share.

## Main result

`absorb_preserves_memory_iff`, for lists of static writes. `absorb_overtakes` shows that the
condition can fail, by a code that sticks out of a section.
-/
namespace CubePatch

/-- A code that does nothing but write, with values of a known size. -/
def Code.IsStaticWrite (code : Code) : Prop :=
  code.kind.IsStatic ∧ ¬ code.BadSerial

instance (code : Code) : Decidable code.IsStaticWrite :=
  inferInstanceAs (Decidable (_ ∧ _))

/-- The memory after static codes were run in order. -/
def Memory.runCodes (memory : Memory) (codes : List Code) : Memory :=
  memory.run (codes.flatMap Code.writes)

/-- The byte that static codes leave at an address, if one of them writes it. -/
def lastWritten? (codes : List Code) (address : UInt32) : Option UInt8 :=
  lastByte? ((codes.flatMap Code.writes).map Write.span) address.toNat

theorem Memory.runCodes_apply (memory : Memory) (codes : List Code) (address : UInt32) :
    memory.runCodes codes address = (lastWritten? codes address).getD (memory address) :=
  Memory.run_apply memory _ address

namespace Absorption

/-- Where remaining codes write, they leave what the whole list leaves. -/
def KeepsOrder (list : CodeList) (absorption : Absorption) : Prop :=
  ∀ address byte, lastWritten? absorption.remaining.codes address = some byte →
    lastWritten? list.codes address = some byte

/-- Where no remaining code writes, a byte that absorbed codes put at the place of an address is the
one that they, or else the image, hold for the address itself. -/
def KeepsPlaces (image : Image) (absorption : Absorption) : Prop :=
  ∀ address offset byte, lastWritten? absorption.remaining.codes address = none →
    image.fileOffset? address = some offset →
    lastByte? (image.placed absorption.writes) offset = some byte →
    (lastWritten? absorption.applied address).or (image.byteAt? address) = some byte

end Absorption

/-! ### What absorbed and remaining codes leave at an address -/

theorem lastWritten?_cons (code : Code) (rest : List Code) (address : UInt32) :
    lastWritten? (code :: rest) address =
      (lastWritten? rest address).or
        (lastByte? (code.writes.map Write.span) address.toNat) := by
  simp only [lastWritten?, List.flatMap_cons, List.map_append, lastByte?_append]

/-- Codes that were sorted by their fate leave, where those left over do not write, what the
absorbed ones leave; where one of those writes, the codes together leave something. -/
private theorem lastWritten?_sorted (fates : List (Code × Fate)) (address : UInt32) :
    (lastWritten? ((fates.filter fun entry => entry.2 ≠ .applied).map (·.1)) address = none →
      lastWritten? (fates.map (·.1)) address =
        lastWritten? ((fates.filter fun entry => entry.2 = .applied).map (·.1)) address) ∧
    (lastWritten? (fates.map (·.1)) address = none →
      lastWritten? ((fates.filter fun entry => entry.2 ≠ .applied).map (·.1)) address = none) := by
  induction fates with
  | nil => exact ⟨fun _ => rfl, fun _ => rfl⟩
  | cons entry rest ih =>
    obtain ⟨code, fate⟩ := entry
    obtain ⟨same, silent⟩ := ih
    by_cases absorbed : fate = .applied
    · simp only [ne_eq, absorbed, not_true_eq_false, decide_false, Bool.false_eq_true,
        not_false_eq_true, List.filter_cons_of_neg, decide_true, List.filter_cons_of_pos,
        List.map_cons, lastWritten?_cons, Option.or_eq_none_iff] at same silent ⊢
      exact ⟨fun blank => by rw [same blank], fun blank => silent blank.1⟩
    · simp only [ne_eq, absorbed, not_false_eq_true, decide_true, List.filter_cons_of_pos,
        decide_false, Bool.false_eq_true, List.filter_cons_of_neg, List.map_cons,
        lastWritten?_cons, Option.or_eq_none_iff] at same silent ⊢
      exact ⟨fun blank => by rw [blank.2, Option.or_none, same blank.1],
        fun blank => ⟨silent blank.1, blank.2⟩⟩

def Write.Reaches (write : Write) (address : UInt32) : Prop :=
  write.address.toNat ≤ address.toNat ∧ address.toNat < write.address.toNat + write.bytes.length

theorem lastByte?_span_eq_none_iff (writes : List Write) (address : UInt32) :
    lastByte? (writes.map Write.span) address.toNat = none ↔
      ∀ write ∈ writes, ¬ write.Reaches address := by
  rw [lastByte?_eq_none_iff, List.forall_mem_map]
  rfl

/-- A write that lies in a section reaches addresses of that section only. -/
theorem Section.contains_of_reaches {area : Section} {write : Write} {address : UInt32}
    (held : area.Holds write.address write.bytes.length) (reaches : write.Reaches address) :
    area.Contains address :=
  ⟨Nat.le_trans held.1.1 reaches.1, Nat.lt_of_lt_of_le reaches.2 held.2⟩

section Held

variable {image : Image} (sound : image.WellFormed) {writes : List Write}
  (held : ∀ write ∈ writes, ∃ area ∈ image.sections,
    area.Holds write.address write.bytes.length)

include sound held

/-- What writes in sections leave at an address, they also put at its place in the file. -/
private theorem lastByte?_span_of_placed {address : UInt32} {offset : Nat}
    (located : image.fileOffset? address = some offset)
    (blank : lastByte? (image.placed writes) offset = none) :
    lastByte? (writes.map Write.span) address.toNat = none := by
  rw [lastByte?_eq_none_iff] at blank
  rw [lastByte?_span_eq_none_iff]
  intro write made reaches
  obtain ⟨area, there, holds⟩ := held write made
  have inside := Section.contains_of_reaches holds reaches
  have start := Section.placeOf_eq holds.1
  have place := Section.placeOf_eq inside
  have put : (area.placeOf write.address, write.bytes) ∈ image.placed writes :=
    (Image.mem_placed_iff image writes _ _).mpr
      ⟨write, made, Image.fileOffset?_of_mem sound there holds.1, rfl⟩
  rw [Image.fileOffset?_of_mem sound there inside, Option.some.injEq] at located
  obtain ⟨lower, upper⟩ := reaches
  apply blank _ put
  constructor
  · show area.placeOf write.address ≤ offset
    omega
  · show offset < area.placeOf write.address + write.bytes.length
    omega

private theorem lastByte?_span_of_unmapped {address : UInt32}
    (unmapped : image.fileOffset? address = none) :
    lastByte? (writes.map Write.span) address.toNat = none := by
  rw [lastByte?_span_eq_none_iff]
  intro write made reaches
  obtain ⟨area, there, holds⟩ := held write made
  have inside := Section.contains_of_reaches holds reaches
  rw [Image.fileOffset?_of_mem sound there inside] at unmapped
  cases unmapped

end Held

/-! ### The absorption of a list of static writes -/

namespace Absorption.Follows

variable {image : Image} {codes : List Code} {absorption : Absorption}

theorem fault_eq_none (follows : absorption.Follows image 0 codes)
    (static : ∀ code ∈ codes, code.IsStaticWrite) : absorption.fault = none := by
  cases failed : absorption.fault with
  | none => rfl
  | some fault =>
    obtain ⟨code, there, -, bad, -⟩ := follows.fault_of fault failed
    exact absurd bad (static code (List.mem_of_getElem? there)).2

theorem writes_held (follows : absorption.Follows image 0 codes) :
    ∀ write ∈ absorption.writes, ∃ area ∈ image.sections,
      area.Holds write.address write.bytes.length := by
  intro write made
  obtain ⟨code, absorbed, here⟩ := List.mem_flatMap.mp made
  obtain ⟨⟨same, fate⟩, member, rfl⟩ := List.mem_map.mp absorbed
  obtain ⟨there, applied⟩ := List.mem_filter.mp member
  obtain ⟨index, found⟩ := List.getElem?_of_mem there
  obtain ⟨-, -, decided⟩ := follows.fate_of index same fate found
  exact (decided.mp (of_decide_eq_true applied)).2.2 write here

/-- Where no remaining code writes, the whole list leaves what the absorbed codes leave. -/
theorem lastWritten?_eq_applied (follows : absorption.Follows image 0 codes)
    (clean : absorption.fault = none) {address : UInt32}
    (blank : lastWritten? absorption.remaining.codes address = none) :
    lastWritten? codes address = lastWritten? absorption.applied address := by
  have sorted := lastWritten?_sorted absorption.fates address
  rw [follows.codes_eq clean] at sorted
  exact sorted.1 blank

theorem lastWritten?_remaining_eq_none (follows : absorption.Follows image 0 codes)
    (clean : absorption.fault = none) {address : UInt32}
    (silent : lastWritten? codes address = none) :
    lastWritten? absorption.remaining.codes address = none := by
  have sorted := lastWritten?_sorted absorption.fates address
  rw [follows.codes_eq clean] at sorted
  exact sorted.2 silent

theorem byteAt?_eq (sound : image.WellFormed) (follows : absorption.Follows image 0 codes)
    {address : UInt32} {offset : Nat} (located : image.fileOffset? address = some offset) :
    absorption.image.byteAt? address =
      (lastByte? (image.placed absorption.writes) offset).or (image.byteAt? address) := by
  have inside := Image.fileOffset?_lt_length sound located
  rw [Image.byteAt?, Image.byteAt?, Image.fileOffset?_congr follows.sections_eq, located,
    Option.bind_some, Option.bind_some, follows.bytes, getElem?_overwriteAll inside]

theorem byteAt?_of_unmapped (follows : absorption.Follows image 0 codes)
    {address : UInt32} (unmapped : image.fileOffset? address = none) :
    absorption.image.byteAt? address = none := by
  rw [Image.byteAt?, Image.fileOffset?_congr follows.sections_eq, unmapped, Option.bind_none]

/-- The two ways to a memory agree exactly if order and places are kept. -/
theorem memory_eq_iff (sound : image.WellFormed) {list : CodeList}
    (follows : absorption.Follows image 0 list.codes) (clean : absorption.fault = none) :
    (∀ memory : Memory, (image.load memory).runCodes list.codes =
        (absorption.image.load memory).runCodes absorption.remaining.codes) ↔
      absorption.KeepsOrder list ∧ absorption.KeepsPlaces image := by
  have sound_after := follows.wellFormed sound
  have held := follows.writes_held
  constructor
  · intro same
    -- what the two leave differs at mapped addresses only, so one memory tells them apart
    have at_address (address : UInt32) := congrFun (same fun _ => 0) address
    simp only [Memory.runCodes_apply, Image.load_apply sound,
      Image.load_apply sound_after] at at_address
    constructor
    · intro address byte last
      have equal := at_address address
      rw [last, Option.getD_some] at equal
      cases whole : lastWritten? list.codes address with
      | none => rw [follows.lastWritten?_remaining_eq_none clean whole] at last; cases last
      | some other => rw [whole, Option.getD_some] at equal; rw [equal]
    · intro address offset byte blank located put
      obtain ⟨old, stood⟩ := Image.exists_byteAt?_eq_some sound located
      have equal := at_address address
      rw [blank, follows.lastWritten?_eq_applied clean blank, follows.byteAt?_eq sound located, put,
        stood] at equal
      rw [stood]
      cases applied : lastWritten? absorption.applied address <;>
        simpa [applied] using equal
  · rintro ⟨order, places⟩ memory
    funext address
    rw [Memory.runCodes_apply, Memory.runCodes_apply, Image.load_apply sound,
      Image.load_apply sound_after]
    cases last : lastWritten? absorption.remaining.codes address with
    | some byte => rw [order address byte last]; rfl
    | none =>
      -- only absorbed codes count here: in the memory for one way, in the file for the other
      rw [follows.lastWritten?_eq_applied clean last]
      cases located : image.fileOffset? address with
      | none =>
        have silent : lastWritten? absorption.applied address = none :=
          lastByte?_span_of_unmapped sound held located
        rw [silent, follows.byteAt?_of_unmapped located, Image.byteAt?, located]
        rfl
      | some offset =>
        rw [follows.byteAt?_eq sound located]
        cases put : lastByte? (image.placed absorption.writes) offset with
        | none =>
          have silent : lastWritten? absorption.applied address = none :=
            lastByte?_span_of_placed sound held located put
          rw [silent]
          rfl
        | some byte =>
          have kept := places address offset byte last located put
          cases applied : lastWritten? absorption.applied address <;>
            simp_all

end Absorption.Follows

/-- Loading an image and running a list of static writes has the effect of absorbing what can be
absorbed, loading the image made so, and running what remains, exactly if the absorption keeps the
order of overlapping writes and the places of addresses in the file. -/
theorem absorb_preserves_memory_iff {file : Bytes} {image : Image}
    (opened : Image.ofBytes file = .ok image) (list : CodeList)
    (static : ∀ code ∈ list.codes, code.IsStaticWrite) :
    (list.absorb image).fault = none ∧
    ((∀ memory : Memory,
      (image.load memory).runCodes list.codes =
        ((list.absorb image).image.load memory).runCodes (list.absorb image).remaining.codes) ↔
      (list.absorb image).KeepsOrder list ∧ (list.absorb image).KeepsPlaces image) := by
  have sound := Image.wellFormed_of_ofBytes opened
  have follows : (list.absorb image).Follows image 0 list.codes :=
    absorbCodes_follows sound 0 list.codes
  have clean := follows.fault_eq_none static
  exact ⟨clean, follows.memory_eq_iff sound clean⟩

/-- A write that sticks out of the small image, and one behind it that lies in it. -/
def overtakenCodes : CodeList := .ofCodes [
  ⟨⟨0x04003106, 0x11111111⟩, [], by decide, by decide⟩,
  ⟨⟨0x04003104, 0x22222222⟩, [], by decide, by decide⟩]

/-- The second code is absorbed and so acts before the first one, which remains and overlaps it. -/
theorem absorb_overtakes :
    Image.ofBytes smallFile = .ok smallImage ∧
    (∀ code ∈ overtakenCodes.codes, code.IsStaticWrite) ∧
    (overtakenCodes.absorb smallImage).fault = none ∧
    (smallImage.load fun _ => 0).runCodes overtakenCodes.codes 0x80003106 = 0x22 ∧
    ((overtakenCodes.absorb smallImage).image.load fun _ => 0).runCodes
      (overtakenCodes.absorb smallImage).remaining.codes 0x80003106 = 0x11 := by
  refine ⟨ofBytes_smallFile, ?_⟩
  decide +kernel

theorem absorb_preserves_memory_iff_overtakenCodes :
    Image.ofBytes smallFile = .ok smallImage ∧
    (∀ code ∈ overtakenCodes.codes, code.IsStaticWrite) ∧
    ((∀ memory : Memory,
      (smallImage.load memory).runCodes overtakenCodes.codes =
        ((overtakenCodes.absorb smallImage).image.load memory).runCodes
          (overtakenCodes.absorb smallImage).remaining.codes) ↔
      (overtakenCodes.absorb smallImage).KeepsOrder overtakenCodes ∧
        (overtakenCodes.absorb smallImage).KeepsPlaces smallImage) := by
  have static : ∀ code ∈ overtakenCodes.codes, code.IsStaticWrite := by decide +kernel
  exact ⟨ofBytes_smallFile, static,
    (absorb_preserves_memory_iff ofBytes_smallFile overtakenCodes static).2⟩

/-! ### A sufficient condition -/

/-- No absorbed code writes an address that a remaining code before it writes. -/
def Absorption.LeavesNoneBehind (absorption : Absorption) : Prop :=
  absorption.fates.Pairwise fun early late =>
    early.2 ≠ .applied → late.2 = .applied → ∀ address,
      ¬ ((∃ write ∈ early.1.writes, write.Reaches address) ∧
        ∃ write ∈ late.1.writes, write.Reaches address)

def Image.SharesNoByte (image : Image) : Prop :=
  ∀ first ∈ image.sections, ∀ second ∈ image.sections, first ≠ second →
    first.size = 0 ∨ second.size = 0 ∨ first.fileStop ≤ second.fileOffset.toNat ∨
      second.fileStop ≤ first.fileOffset.toNat

theorem lastWritten?_eq_none_iff (codes : List Code) (address : UInt32) :
    lastWritten? codes address = none ↔
      ∀ code ∈ codes, ¬ ∃ write ∈ code.writes, write.Reaches address := by
  rw [lastWritten?, lastByte?_span_eq_none_iff, List.forall_mem_flatMap]
  constructor
  · rintro missed code member ⟨write, made, reaches⟩
    exact missed code member write made reaches
  · intro missed code member write made reaches
    exact missed code member ⟨write, made, reaches⟩

theorem Absorption.LeavesNoneBehind.keepsOrder {absorption : Absorption}
    (order : absorption.LeavesNoneBehind) {list : CodeList}
    (codes_eq : absorption.fates.map (·.1) = list.codes) : absorption.KeepsOrder list := by
  intro address byte last
  rw [← codes_eq]
  unfold remaining at last
  simp only [CodeList.ofCodes] at last
  unfold LeavesNoneBehind at order
  -- the induction is on the fates: a code is checked against all that come behind it
  generalize absorption.fates = fates at order last ⊢
  induction fates generalizing byte with
  | nil => exact last
  | cons entry rest ih =>
    obtain ⟨first, later⟩ := List.pairwise_cons.mp order
    rw [List.map_cons, lastWritten?_cons]
    by_cases absorbed : entry.2 = .applied
    · simp only [ne_eq, absorbed, not_true_eq_false, decide_false, Bool.false_eq_true,
        not_false_eq_true, List.filter_cons_of_neg] at last
      rw [ih byte later last]
      rfl
    · simp only [ne_eq, absorbed, not_false_eq_true, decide_true, List.filter_cons_of_pos,
        List.map_cons, lastWritten?_cons] at last
      obtain kept | ⟨blank, here⟩ := Option.or_eq_some_iff.mp last
      · rw [ih byte later kept]
        rfl
      · -- an absorbed code behind would overlap the code that wrote the byte
        have silent : lastWritten? (rest.map (·.1)) address = none := by
          rw [(lastWritten?_sorted rest address).1 blank, lastWritten?_eq_none_iff]
          intro code member reached
          obtain ⟨late, there, rfl⟩ := List.mem_map.mp member
          obtain ⟨behind, applied⟩ := List.mem_filter.mp there
          have reaches : ∃ write ∈ entry.1.writes, write.Reaches address := by
            apply Classical.byContradiction
            intro missed
            rw [(lastByte?_span_eq_none_iff _ _).mpr fun write made reaches =>
              missed ⟨write, made, reaches⟩] at here
            cases here
          exact first late behind absorbed (of_decide_eq_true applied) address ⟨reaches, reached⟩
        rw [silent, here]
        rfl

/-- Where sections share no byte of the file, a place is reached through its own address only. -/
theorem lastByte?_placed_eq {image : Image} (sound : image.WellFormed)
    (separate : image.SharesNoByte) {writes : List Write}
    (held : ∀ write ∈ writes, ∃ area ∈ image.sections,
      area.Holds write.address write.bytes.length)
    {address : UInt32} {offset : Nat} (located : image.fileOffset? address = some offset) :
    lastByte? (image.placed writes) offset =
      lastByte? (writes.map Write.span) address.toNat := by
  induction writes with
  | nil => rfl
  | cons write rest ih =>
    obtain ⟨area, there, holds⟩ := held write List.mem_cons_self
    have tail := ih fun later member => held later (List.mem_cons_of_mem _ member)
    have start := Image.fileOffset?_of_mem sound there holds.1
    have cut : image.placed (write :: rest) =
        (area.placeOf write.address, write.bytes) :: image.placed rest := by
      simp only [Image.placed, List.filterMap_cons, start, Option.map_some]
    rw [cut, List.map_cons, Write.span, lastByte?, lastByte?, tail]
    congr 1
    obtain ⟨home, member, inside, place⟩ := (Image.fileOffset?_eq_some_iff sound _ _).mp located
    have from_start := Section.placeOf_eq holds.1
    have from_home := Section.placeOf_eq inside
    by_cases same : area = home
    · subst same
      have distance : offset - area.placeOf write.address =
          address.toNat - write.address.toNat := by omega
      by_cases order : write.address.toNat ≤ address.toNat
      · rw [if_pos (by omega), if_pos order, distance]
      · rw [if_neg (by omega), if_neg order]
    · -- another section holds the address, and another part of the file its place
      have elsewhere : ¬ write.Reaches address := by
        intro reaches
        exact same (sound.eq_of_contains there member (Section.contains_of_reaches holds reaches)
          inside)
      have off_place : ¬ (area.placeOf write.address ≤ offset ∧
          offset < area.placeOf write.address + write.bytes.length) := by
        have apart := separate area there home member same
        have first := holds.1.2
        have last := holds.2
        have second := inside.2
        have lower := holds.1.1
        have other := inside.1
        simp only [← UInt32.toNat_inj, UInt32.toNat_zero, Section.fileStop] at apart
        unfold Section.stop at first last second
        omega
      rw [getElem?_from_eq_none_iff.mpr off_place, getElem?_from_eq_none_iff.mpr elsewhere]

/-- Absorbing codes ahead of time has the effect of running them if sections share no byte of the
file and no remaining code is overlapped by an absorbed one behind it. -/
theorem absorb_preserves_memory_of_apart {image : Image} (sound : image.WellFormed)
    (separate : image.SharesNoByte) (list : CodeList)
    (static : ∀ code ∈ list.codes, code.IsStaticWrite)
    (order : (list.absorb image).LeavesNoneBehind) (memory : Memory) :
    (image.load memory).runCodes list.codes =
      ((list.absorb image).image.load memory).runCodes (list.absorb image).remaining.codes := by
  have follows : (list.absorb image).Follows image 0 list.codes :=
    absorbCodes_follows sound 0 list.codes
  have clean := follows.fault_eq_none static
  apply (follows.memory_eq_iff sound clean).mpr
  refine ⟨order.keepsOrder (follows.codes_eq clean), ?_⟩
  intro address offset byte blank located put
  rw [lastByte?_placed_eq sound separate follows.writes_held located] at put
  have written : lastWritten? (list.absorb image).applied address = some byte := put
  rw [written]
  rfl

end CubePatch
