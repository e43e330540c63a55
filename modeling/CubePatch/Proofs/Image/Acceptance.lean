import CubePatch.Proofs.Image.Gap
import CubePatch.Proofs.Image.Reopen
import Mathlib.Data.List.Pairwise

/-!
Which files are opened.

A file is opened if the slots that its header uses describe sections that lie behind the header and
within the file, and if no place belongs to two of them. The sections of the image are then those the
used slots describe. As no two of them share an address, it does not matter in which order they are
searched.

## Main result

`ofBytes_exact`: exactly these files are opened, their bytes are kept, every section has all of its
bytes, and exactly the addresses of the used slots are resolved.
-/
namespace CubePatch

/-- Sections that are apart have no place in common. -/
theorem Section.apart_iff (first second : Section) :
    first.Apart second ↔ ∀ place, first.Covers place → ¬ second.Covers place := by
  simp only [Apart, Covers, stop, ← UInt32.toNat_inj, UInt32.toNat_zero]
  constructor
  · intro apart place here there
    omega
  · intro apart
    -- if none of the four cases holds, both cover the later one of their starts
    by_contra overlap
    exact apart (max first.loadAddress.toNat second.loadAddress.toNat) (by omega) (by omega)

instance : Std.Symm Section.Apart where
  symm _ _ := Section.Apart.symm

namespace Header

/-- A slot is used if neither its own offset is zero nor that of a slot in front of it in its table. -/
def IsUsed (header : Bytes) (kind : SectionKind) (slot : Nat) : Prop :=
  slot ∈ kind.slots ∧
    ∀ other ∈ kind.slots, other ≤ slot → wordAt header (offsetField other) ≠ 0

private theorem mem_takeWhile_range' (used : Nat → Bool) (start count slot : Nat) :
    slot ∈ (List.range' start count).takeWhile used ↔
      slot ∈ List.range' start count ∧
        ∀ other ∈ List.range' start count, other ≤ slot → used other = true := by
  induction count generalizing start with
  | zero => simp
  | succ count ih =>
    rw [List.range'_succ, List.takeWhile_cons]
    by_cases first : used start = true
    · simp only [first, if_true, List.mem_cons, ih, List.mem_range'_1, forall_eq_or_imp]
      constructor
      · rintro (rfl | ⟨inside, earlier⟩)
        · exact ⟨Or.inl rfl, fun _ => trivial, fun other there before => by omega⟩
        · exact ⟨Or.inr inside, fun _ => trivial, earlier⟩
      · rintro ⟨rfl | inside, -, earlier⟩
        · exact Or.inl rfl
        · exact Or.inr ⟨inside, earlier⟩
    · -- an unused slot ends the table, and it is in front of all others
      rw [if_neg first]
      simp only [List.not_mem_nil, false_iff, List.mem_cons, List.mem_range'_1, not_and]
      intro inside earlier
      exact first (earlier start (Or.inl rfl) (by omega))

/-- The used sections are those of the used slots. -/
theorem mem_usedSections_iff (header : Bytes) (kind : SectionKind) (area : Section) :
    area ∈ usedSections header kind ↔
      ∃ slot, IsUsed header kind slot ∧ area = sectionAt header kind slot := by
  rw [usedSections, List.takeWhile_map, List.mem_map]
  refine exists_congr fun slot => and_congr ?_ eq_comm
  rw [IsUsed, SectionKind.slots, mem_takeWhile_range']
  refine and_congr_right fun _ => forall₂_congr fun other _ => imp_congr_right fun _ => ?_
  exact decide_eq_true_iff

/-- The slots of the used sections, text before data, are in order. -/
theorem pairwise_slot_lt (header : Bytes) :
    (usedSections header .text ++ usedSections header .data).Pairwise (·.slot < ·.slot) := by
  have part (kind : SectionKind) :
      ((usedSections header kind).map Section.slot).Sublist kind.slots := by
    have whole : (kind.slots.map (sectionAt header kind)).map Section.slot = kind.slots := by
      rw [List.map_map]
      exact List.map_id _
    rw [← whole]
    exact (List.takeWhile_sublist _).map Section.slot
  have ordered : (SectionKind.text.slots ++ SectionKind.data.slots).Pairwise (· < ·) := by decide
  rw [← List.pairwise_map, List.map_append]
  exact ordered.sublist ((part .text).append (part .data))

end Header

/-- A file that can be opened, in terms of the words of its header. -/
structure IsImageFile (file : Bytes) : Prop where
  header : headerSize ≤ file.length
  inside : ∀ kind slot, Header.IsUsed file kind slot →
    headerSize ≤ (wordAt file (Header.offsetField slot)).toNat ∧
      (wordAt file (Header.offsetField slot)).toNat +
        (wordAt file (Header.sizeField slot)).toNat ≤ file.length
  apart : ∀ kind slot other number, Header.IsUsed file kind slot →
    Header.IsUsed file other number → slot ≠ number → ∀ place,
      ¬ ((wordAt file (Header.addressField slot)).toNat ≤ place ∧
          place < (wordAt file (Header.addressField slot)).toNat +
            (wordAt file (Header.sizeField slot)).toNat ∧
        (wordAt file (Header.addressField number)).toNat ≤ place ∧
          place < (wordAt file (Header.addressField number)).toNat +
            (wordAt file (Header.sizeField number)).toNat)

namespace Image

theorem mem_usedSections_both {file : Bytes} {area : Section} :
    area ∈ Header.usedSections file .text ++ Header.usedSections file .data ↔
      ∃ kind slot, Header.IsUsed file kind slot ∧ area = Header.sectionAt file kind slot := by
  rw [List.mem_append, Header.mem_usedSections_iff, Header.mem_usedSections_iff]
  constructor
  · rintro (text | data)
    · exact ⟨.text, text⟩
    · exact ⟨.data, data⟩
  · rintro ⟨kind, used⟩
    cases kind
    · exact Or.inl used
    · exact Or.inr used

/-- The sections of different slots are apart. -/
theorem pairwise_apart_iff (file : Bytes) :
    (Header.usedSections file .text ++ Header.usedSections file .data).Pairwise Section.Apart ↔
      ∀ kind slot other number, Header.IsUsed file kind slot → Header.IsUsed file other number →
        slot ≠ number →
          (Header.sectionAt file kind slot).Apart (Header.sectionAt file other number) := by
  have ordered := Header.pairwise_slot_lt file
  constructor
  · -- a section knows its slot, so two slots have two sections
    intro apart kind slot other number used there differs
    have first := mem_usedSections_both.mpr ⟨kind, slot, used, rfl⟩
    have second := mem_usedSections_both.mpr ⟨other, number, there, rfl⟩
    exact apart.forall first second fun same => differs (congrArg Section.slot same)
  · -- in the list the slots are in order, so no slot comes twice
    intro apart
    refine ordered.imp_of_mem fun first second before => ?_
    obtain ⟨kind, slot, used, rfl⟩ := mem_usedSections_both.mp first
    obtain ⟨other, number, there, rfl⟩ := mem_usedSections_both.mp second
    exact apart kind slot other number used there (Nat.ne_of_lt before)

/-- A file is opened exactly if it is the file of an image. -/
theorem exists_ofBytes_iff (file : Bytes) :
    (∃ image, ofBytes file = .ok image) ↔ IsImageFile file := by
  have together : (checkSections file.length
      (Header.usedSections file .text ++ Header.usedSections file .data) = .ok () ∧
        headerSize ≤ file.length) ↔ IsImageFile file := by
    rw [checkSections_eq_ok_iff, pairwise_apart_iff]
    constructor
    · rintro ⟨⟨inside, apart⟩, long⟩
      refine ⟨long, ?_, ?_⟩
      · intro kind slot used
        exact inside _ (mem_usedSections_both.mpr ⟨kind, slot, used, rfl⟩)
      · rintro kind slot other number used there differs place ⟨lower, upper, above, below⟩
        have free := (Section.apart_iff _ _).mp (apart kind slot other number used there differs)
        exact free place ⟨lower, upper⟩ ⟨above, below⟩
    · rintro ⟨long, inside, apart⟩
      refine ⟨⟨?_, ?_⟩, long⟩
      · intro area member
        obtain ⟨kind, slot, used, rfl⟩ := mem_usedSections_both.mp member
        exact inside kind slot used
      · intro kind slot other number used there differs
        rw [Section.apart_iff]
        rintro place ⟨lower, upper⟩ ⟨above, below⟩
        exact apart kind slot other number used there differs place ⟨lower, upper, above, below⟩
  rw [← together]
  constructor
  · rintro ⟨image, opened⟩
    obtain ⟨-, text, data, long, checked⟩ := ofBytes_eq_ok opened
    rw [sections, text, data] at checked
    exact ⟨checked, long⟩
  · rintro ⟨checked, long⟩
    exact exists_ofBytes long checked

/-- The files that are opened are those whose used slots describe sections that lie in the file behind
the header and share no address. Opening keeps the file, and each section has all of its bytes. The
addresses that are resolved are those of the used slots, in whatever order the sections are
searched. -/
theorem ofBytes_exact (file : Bytes) :
    ((∃ image, ofBytes file = .ok image) ↔ IsImageFile file) ∧
    ∀ image, ofBytes file = .ok image →
      image.bytes = file ∧
      (∀ area, area ∈ image.sections ↔
        ∃ kind slot, Header.IsUsed file kind slot ∧ area = Header.sectionAt file kind slot) ∧
      (∀ area ∈ image.sections, area.fileStop ≤ file.length ∧
        image.sectionBytes area = slice file area.fileOffset.toNat area.size.toNat ∧
        (image.sectionBytes area).length = area.size.toNat) ∧
      ∀ address,
        ((∃ area, image.resolve address = .ok area) ↔
          ∃ kind slot, Header.IsUsed file kind slot ∧
            (Header.sectionAt file kind slot).Contains address) ∧
        ∀ order : List Section, order.Perm image.sections → ∀ area,
          image.resolve address = .ok area ↔ order.find? (·.Contains address) = some area := by
  refine ⟨exists_ofBytes_iff file, fun image opened => ?_⟩
  obtain ⟨bytes, text, data, -, -⟩ := ofBytes_eq_ok opened
  have sound := wellFormed_of_ofBytes opened
  have listed : ∀ area, area ∈ image.sections ↔
      ∃ kind slot, Header.IsUsed file kind slot ∧ area = Header.sectionAt file kind slot := by
    intro area
    rw [sections, text, data, mem_usedSections_both]
  refine ⟨bytes, listed, ?_, fun address => ⟨?_, ?_⟩⟩
  · intro area member
    have inside := sound.inFile area member
    rw [sectionBytes_eq, ← bytes]
    exact ⟨inside, rfl, length_slice inside⟩
  · constructor
    · rintro ⟨area, found⟩
      obtain ⟨member, inside⟩ := (resolve_eq_ok_iff sound address area).mp found
      obtain ⟨kind, slot, used, rfl⟩ := (listed area).mp member
      exact ⟨kind, slot, used, inside⟩
    · rintro ⟨kind, slot, used, inside⟩
      have member := (listed _).mpr ⟨kind, slot, used, rfl⟩
      exact ⟨_, (resolve_eq_ok_iff sound address _).mpr ⟨member, inside⟩⟩
  · -- at most one section contains the address, so any order finds it
    intro order same area
    have apart : order.Pairwise Section.Apart :=
      (same.pairwise_iff Section.Apart.symm).mpr sound.apart
    rw [resolve_eq_ok_iff sound, find?_contains_of_apart apart, same.mem_iff]

end Image

end CubePatch
