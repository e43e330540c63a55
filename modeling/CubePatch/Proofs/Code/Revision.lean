import CubePatch.Code.Absorption
import CubePatch.Proofs.Code.Grammar

/-!
What holds of a code list however it was made.

A list is read from bytes or from bare codes. After that, codes are put in front of it, and codes
that could be absorbed are taken out of it. What is taken out is not checked again, and the walk over
the records of a list ends without a word at a fault. Neither does harm, since a list is always
spelled by its codes.

## Main result

`revisions_sound`: after any revisions of any list, the records are met one behind the other and make
up all of the body, and reading the list gives it back.
-/
namespace CubePatch.CodeList

/-- What is done to a list. -/
inductive Revision where
  | prepend (codes : Bytes)
  | absorb (image : Image)

/-- The list after a revision. A revision that fails leaves the list as it is. -/
def revised (list : CodeList) : Revision → CodeList
  | .prepend codes =>
    match list.prepend codes with
    | .ok (longer, _) => longer
    | .error _ => list
  | .absorb image =>
    let absorption := list.absorb image
    if absorption.fault = none then absorption.remaining else list

/-- How the bytes of a list are made up. -/
structure IsSound (list : CodeList) : Prop where
  starts : magic <+: list.bytes
  ends : IsClosing (list.bytes.drop (list.size - 8))
  body_eq : list.body = slice list.bytes magic.length (list.size - 16)
  /-- The walk over the records passes all of the body. -/
  tiles : ((recordsOf list.bytes).map (·.2)).flatten = list.body
  isRecord : ∀ entry ∈ recordsOf list.bytes, IsRecord entry.2
  first : ∀ entry, (recordsOf list.bytes)[0]? = some entry → entry.1 = magic.length
  next : ∀ index entry after, (recordsOf list.bytes)[index]? = some entry →
    (recordsOf list.bytes)[index + 1]? = some after → after.1 = entry.1 + announcedLength entry.2
  reread : ofBytes list.bytes = .ok (list, [])

theorem map_recordsOf_bytes (list : CodeList) :
    (recordsOf list.bytes).map (·.2) = list.codes.map Code.bytes := by
  have seconds : ∀ offset (codes : List Code), (placedFrom offset codes).map (·.2) = codes := by
    intro offset codes
    induction codes generalizing offset with
    | nil => rfl
    | cons code later ih => rw [placedFrom, List.map_cons, ih]
  rw [recordsOf_bytes, List.map_map, placed]
  conv => rhs; rw [← seconds magic.length list.codes, List.map_map]
  rfl

theorem isSound (list : CodeList) : IsSound list := by
  have read := list.isReadAs_codes
  have size := list.size_eq
  have first_line : magic.length = 8 := rfl
  have records := list.map_recordsOf_bytes
  have isRecord : ∀ entry ∈ recordsOf list.bytes, IsRecord entry.2 := by
    intro entry member
    have listed : entry.2 ∈ list.codes.map Code.bytes := records ▸ List.mem_map_of_mem member
    exact isRecord_of_mem_map _ listed
  refine ⟨?_, ?_, ?_, ?_, isRecord, ?_, ?_, ?_⟩
  · rw [CodeList.bytes, List.append_assoc]
    exact List.prefix_append _ _
  · -- the last eight bytes are the closing line, whatever the records look like
    have front : (magic ++ list.body).length = list.size - 8 := by
      rw [List.length_append]
      omega
    rw [CodeList.bytes, ← front, List.drop_left]
    exact (isClosing_iff _).mpr ⟨list.closing, list.closes, rfl⟩
  · have inner : list.size - 16 = list.body.length := by omega
    rw [inner, CodeList.bytes, slice_append_middle]
  · rw [records, list.body_eq_flatten]
  · intro entry found
    rw [read.records_eq, Option.map_eq_some_iff] at found
    obtain ⟨record, -, rfl⟩ := found
    rfl
  · intro index entry after here there
    -- the offset of a record is what the records in front of it add up to
    have announced := (isRecord entry (List.mem_of_getElem? here)).2
    rw [read.records_eq, Option.map_eq_some_iff] at here there
    obtain ⟨record, this, rfl⟩ := here
    obtain ⟨later, -, rfl⟩ := there
    rw [← announced, List.take_add_one, this, Option.toList_some, List.flatten_append,
      List.length_append, List.flatten_singleton, Nat.add_assoc]
  · rw [← List.append_nil list.bytes]
    exact ofBytes_bytes list []

theorem prepend_records {records : List Bytes} (isRecord : ∀ record ∈ records, IsRecord record)
    (list : CodeList) :
    ∃ longer, list.prepend records.flatten = .ok (longer, []) ∧
      (recordsOf longer.bytes).map (·.2) = records ++ (recordsOf list.bytes).map (·.2) := by
  obtain ⟨codes, rfl⟩ := exists_codes_of_isRecord isRecord
  refine ⟨ofCodes (codes ++ list.codes), ?_, ?_⟩
  · rw [← List.flatMap_def]
    exact prepend_codes codes list
  · rw [map_recordsOf_bytes, map_recordsOf_bytes, ← List.map_append]
    rfl

/-- The codes that were looked at are the first ones of the list. -/
theorem fates_begin_codes (depth : Nat) (codes : List Code) (image : Image) :
    (absorbCodes depth codes image).fates.map (·.1) <+: codes := by
  induction codes generalizing depth image with
  | nil => exact List.prefix_rfl
  | cons code later ih =>
    rw [absorbCodes]
    split
    · exact List.nil_prefix
    · exact List.cons_prefix_cons.mpr ⟨rfl, ih _ _⟩

/-- Absorbing takes whole records out of a list and leaves the others as they are. -/
theorem records_revised_absorb (list : CodeList) (image : Image) :
    ((recordsOf (list.revised (.absorb image)).bytes).map (·.2)).Sublist
      ((recordsOf list.bytes).map (·.2)) := by
  rw [map_recordsOf_bytes, map_recordsOf_bytes]
  apply List.Sublist.map
  unfold revised
  dsimp only
  split
  · -- what was applied is left out of the codes that were looked at
    have looked := (fates_begin_codes 0 list.codes image).sublist
    exact (List.filter_sublist.map _).trans looked
  · exact List.Sublist.refl _

/-- Whatever is done to a list, its records make up its body, and it is read back as it is. -/
theorem revisions_sound (list : CodeList) (revisions : List Revision) :
    let final := revisions.foldl revised list
    IsSound final ∧
    (∀ records : List Bytes, (∀ record ∈ records, IsRecord record) →
      ∃ longer, final.prepend records.flatten = .ok (longer, []) ∧
        (recordsOf longer.bytes).map (·.2) = records ++ (recordsOf final.bytes).map (·.2)) ∧
    (∀ codes fault, final.prepend codes = .error fault →
      final.revised (.prepend codes) = final) ∧
    ∀ image, ((recordsOf (final.revised (.absorb image)).bytes).map (·.2)).Sublist
      ((recordsOf final.bytes).map (·.2)) := by
  intro final
  refine ⟨final.isSound, fun records isRecord => prepend_records isRecord final, ?_,
    final.records_revised_absorb⟩
  intro codes fault failed
  rw [revised, failed]

end CubePatch.CodeList
