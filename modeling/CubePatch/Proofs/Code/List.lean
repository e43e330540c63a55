import CubePatch.Code.Source
import CubePatch.Payload.Protection
import CubePatch.Proofs.Bytes

/-!
Reading a code list that was written gives the list back, and whatever stands behind it.

A code carries exactly the bytes its line announces. So reading at the front of a written code takes
that code and stops where it ends, and reading a list is an induction on its codes.
-/
namespace CubePatch

theorem Line.take?_bytes (line : Line) (rest : Bytes) :
    take? (line.bytes ++ rest) = some (line, rest) := by
  obtain ⟨head, operand⟩ := line
  simp only [bytes, wordBytes, List.cons_append, List.nil_append, take?, joinBytes_of_wordBytes]

namespace CodeList

theorem front_code (offset : Nat) (code : Code) (rest : Bytes) :
    front offset (code.bytes ++ rest) = .ok (.code code rest) := by
  -- the length the line announces is the length of the payload, so the cut is where the code ends
  have whole := code.length_payload
  have taken := Line.take?_bytes code.line (code.payload ++ rest)
  rw [← List.append_assoc] at taken
  unfold front
  rw [Code.bytes, taken]
  dsimp only
  have fits : ((code.payload ++ rest).take code.line.payloadLength) = code.payload := by
    rw [← whole, List.take_left]
  have behind : ((code.payload ++ rest).drop code.line.payloadLength) = rest := by
    rw [← whole, List.drop_left]
  rw [dif_neg code.running]
  simp only [fits, behind, whole, dite_true]

theorem front_closing (offset : Nat) {line : Line} (closes : line.kind = .terminator)
    (rest : Bytes) : front offset (line.bytes ++ rest) = .ok (.closing line closes rest) := by
  unfold front
  rw [Line.take?_bytes]
  exact dif_pos closes

theorem scan_eq (offset : Nat) (bytes : Bytes) :
    scan offset bytes =
      match front offset bytes with
      | .error fault => .error fault
      | .ok (.closing line closes rest) => .ok (⟨[], line, closes⟩, rest)
      | .ok (.code code rest) =>
        (scan (offset + code.bytes.length) rest).map fun found =>
          ({ found.1 with codes := code :: found.1.codes }, found.2) := by
  rw [scan]
  split
  next fault found => rw [found]
  next line closes rest found => rw [found]
  next code rest found =>
    rw [found]
    dsimp only
    cases scan (offset + code.bytes.length) rest <;> rfl

/-- What was written is read code by code, and then what stands behind it. -/
theorem scan_append (offset : Nat) (codes : List Code) (tail : Bytes) :
    scan offset (codes.flatMap Code.bytes ++ tail) =
      (scan (offset + (codes.flatMap Code.bytes).length) tail).map fun found =>
        ({ found.1 with codes := codes ++ found.1.codes }, found.2) := by
  induction codes generalizing offset with
  | nil =>
    rw [List.flatMap_nil, List.nil_append, List.length_nil, Nat.add_zero]
    cases scan offset tail <;> rfl
  | cons code later ih =>
    rw [List.flatMap_cons, List.append_assoc, scan_eq, front_code]
    dsimp only
    rw [ih, List.length_append, Nat.add_assoc]
    cases scan (offset + (code.bytes.length + (later.flatMap Code.bytes).length)) tail <;> rfl

/-- What was written after the first line is read back up to the line that closes it. -/
theorem scan_codes (offset : Nat) (codes : List Code) {closing : Line}
    (closes : closing.kind = .terminator) (rest : Bytes) :
    scan offset (codes.flatMap Code.bytes ++ (closing.bytes ++ rest)) =
      .ok (⟨codes, closing, closes⟩, rest) := by
  rw [scan_append, scan_eq, front_closing _ closes]
  dsimp only [Except.map]
  rw [List.append_nil]

theorem ofBytes_bytes (list : CodeList) (rest : Bytes) :
    ofBytes (list.bytes ++ rest) = .ok (list, rest) := by
  have starts : magic.isPrefixOf (list.bytes ++ rest) = true := by
    rw [List.isPrefixOf_iff_prefix, bytes, List.append_assoc, List.append_assoc]
    exact List.prefix_append _ _
  have split_off : (list.bytes ++ rest).drop magic.length =
      list.codes.flatMap Code.bytes ++ (list.closing.bytes ++ rest) := by
    rw [bytes, List.append_assoc, List.append_assoc, List.drop_left]
    rfl
  rw [ofBytes, if_pos starts, split_off]
  exact scan_codes magic.length list.codes list.closes rest

/-- Written codes are read as a list of those codes. -/
theorem ofBody_codes (codes : List Code) :
    ofBody (codes.flatMap Code.bytes) = .ok (ofCodes codes, []) := by
  have framed : frame (codes.flatMap Code.bytes) = (ofCodes codes).bytes ++ [] := by
    rw [List.append_nil]
    rfl
  rw [ofBody, framed, ofBytes_bytes]

/-- Putting written codes in front of a list keeps its codes and closes it anew. -/
theorem prepend_codes (front : List Code) (list : CodeList) :
    list.prepend (front.flatMap Code.bytes) = .ok (ofCodes (front ++ list.codes), []) := by
  rw [prepend, body, ← List.flatMap_append, ofBody_codes]

theorem readBefore_codes (front : List Code) (list : CodeList) :
    (list.readBefore (front.flatMap Code.bytes)).outcome = .ok (ofCodes (front ++ list.codes)) := by
  rw [readBefore, prepend_codes, ofReading]
  rfl

/-- A list that stands behind other bytes begins where these end. -/
theorem slice_magic (list : CodeList) (first : Bytes) :
    slice (first ++ list.bytes) first.length magic.length = magic := by
  rw [bytes, List.append_assoc, ← List.append_assoc]
  exact slice_append_middle _ _ _

/-! ### Sizes -/

theorem size_eq (list : CodeList) : list.size = magic.length + list.body.length + 8 := by
  rw [CodeList.size, CodeList.bytes, List.length_append, List.length_append, Line.length_bytes]

/-- A list with fewer codes is not larger. -/
theorem size_le_of_sublist {list other : CodeList} (fewer : list.codes.Sublist other.codes) :
    list.size ≤ other.size := by
  rw [size_eq, size_eq, body, body]
  refine Nat.add_le_add_right (Nat.add_le_add_left ?_ _) _
  generalize list.codes = codes at fewer ⊢
  generalize other.codes = all at fewer ⊢
  induction fewer with
  | slnil => exact Nat.le_refl _
  | cons code _ ih =>
    rw [List.flatMap_cons, List.length_append]
    exact Nat.le_trans ih (Nat.le_add_left _ _)
  | cons_cons code _ ih =>
    rw [List.flatMap_cons, List.flatMap_cons, List.length_append, List.length_append]
    exact Nat.add_le_add_left ih _

end CodeList

/-- The protection code as a code: instructions, of which the other words are. -/
def protectionStub : Code where
  line := ⟨0xC0000000, 0x17⟩
  payload := (protectionWords.drop 2).flatMap wordBytes
  length_payload := by decide +kernel
  running := by decide

theorem bytes_protectionStub : protectionStub.bytes = protectionCode := rfl

theorem readBefore_protectionCode (list : CodeList) :
    (list.readBefore protectionCode).outcome = .ok (.ofCodes (protectionStub :: list.codes)) := by
  have stub : protectionCode = [protectionStub].flatMap Code.bytes := by
    rw [List.flatMap_cons, List.flatMap_nil, List.append_nil, bytes_protectionStub]
  rw [stub, CodeList.readBefore_codes, List.singleton_append]

end CubePatch
