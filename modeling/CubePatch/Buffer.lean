import CubePatch.Bytes

/-!
# Buffers

A buffer holds bytes in an array, so that writing in it copies nothing but what is written. Its
meaning is its list of bytes: each operation here does to that list what the operation of the same
name does to byte strings.
-/
namespace CubePatch

abbrev Buffer := Array UInt8

namespace Buffer

/-- Replaces the bytes from `offset` on by `data`, without growing the buffer. -/
def overwrite (buffer : Buffer) (offset : Nat) : Bytes → Buffer
  | [] => buffer
  | first :: rest => overwrite (buffer.setIfInBounds offset first) (offset + 1) rest

@[simp] theorem toList_overwrite (buffer : Buffer) (offset : Nat) (data : Bytes) :
    (overwrite buffer offset data).toList = CubePatch.overwrite buffer.toList offset data := by
  induction data generalizing buffer offset with
  | nil => simp [overwrite]
  | cons first rest ih => rw [overwrite, ih, overwrite_cons, Array.toList_setIfInBounds]

@[simp] theorem size_overwrite (buffer : Buffer) (offset : Nat) (data : Bytes) :
    (overwrite buffer offset data).size = buffer.size := by
  simp [← Array.length_toList]

/-- Makes some writes in order, each given by its offset and its bytes. -/
def overwriteAll (buffer : Buffer) (writes : List (Nat × Bytes)) : Buffer :=
  writes.foldl (fun buffer write => overwrite buffer write.1 write.2) buffer

theorem toList_overwriteAll (buffer : Buffer) (writes : List (Nat × Bytes)) :
    (overwriteAll buffer writes).toList =
      writes.foldl (fun bytes write => CubePatch.overwrite bytes write.1 write.2)
        buffer.toList := by
  induction writes generalizing buffer with
  | nil => rfl
  | cons write rest ih => simpa [overwriteAll] using ih (overwrite buffer write.1 write.2)

@[simp] theorem size_overwriteAll (buffer : Buffer) (writes : List (Nat × Bytes)) :
    (overwriteAll buffer writes).size = buffer.size := by
  induction writes generalizing buffer with
  | nil => rfl
  | cons write rest ih => simpa [overwriteAll] using ih (overwrite buffer write.1 write.2)

/-- `length` bytes from `offset` on, fewer if the buffer ends before. -/
def slice (buffer : Buffer) (offset length : Nat) : Bytes :=
  (buffer.extract offset (offset + length)).toList

@[simp] theorem slice_eq (buffer : Buffer) (offset length : Nat) :
    slice buffer offset length = CubePatch.slice buffer.toList offset length := by
  simp [slice, CubePatch.slice, List.extract_eq_take_drop]

/-- The word whose first byte is at `offset`, zero where fewer than four bytes are left. -/
def wordAt (buffer : Buffer) (offset : Nat) : UInt32 :=
  CubePatch.wordAt (slice buffer offset 4) 0

@[simp] theorem wordAt_eq (buffer : Buffer) (offset : Nat) :
    wordAt buffer offset = CubePatch.wordAt buffer.toList offset := by
  simp only [wordAt, slice_eq, CubePatch.wordAt, CubePatch.slice, List.drop_zero]
  rcases buffer.toList.drop offset with _ | ⟨a, _ | ⟨b, _ | ⟨c, _ | ⟨d, rest⟩⟩⟩⟩ <;> rfl

/-- Appends zeros up to a multiple of `unit`. -/
def padTo (unit : Nat) (buffer : Buffer) : Buffer :=
  buffer ++ Array.replicate (roundUp buffer.size unit - buffer.size) 0

@[simp] theorem toList_padTo (unit : Nat) (buffer : Buffer) :
    (padTo unit buffer).toList = CubePatch.padTo unit buffer.toList := by
  simp [padTo, CubePatch.padTo]

end Buffer

end CubePatch
