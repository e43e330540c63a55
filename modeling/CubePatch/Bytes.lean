/-!
# Bytes

Byte strings, their big-endian words, and writing in place. Everything read from a file is a
`Bytes`; offsets and lengths are natural numbers, so no sum of them wraps. Writing in place keeps
the length whatever the offset is, because what would stand past the end is dropped.
-/
namespace CubePatch

abbrev Bytes := List UInt8

/-- The word with these bytes, most significant first. -/
def joinBytes (first second third fourth : UInt8) : UInt32 :=
  first.toUInt32 <<< 24 ||| second.toUInt32 <<< 16 ||| third.toUInt32 <<< 8 ||| fourth.toUInt32

/-- The halfword with these bytes, most significant first. -/
def joinHalf (first second : UInt8) : UInt16 :=
  first.toUInt16 <<< 8 ||| second.toUInt16

/-- The bytes of a word, most significant first. -/
def wordBytes (word : UInt32) : Bytes :=
  [(word >>> 24).toUInt8, (word >>> 16).toUInt8, (word >>> 8).toUInt8, word.toUInt8]

def halfBytes (half : UInt16) : Bytes :=
  [(half >>> 8).toUInt8, half.toUInt8]

@[simp] theorem length_wordBytes (word : UInt32) : (wordBytes word).length = 4 := rfl

@[simp] theorem length_halfBytes (half : UInt16) : (halfBytes half).length = 2 := rfl

/-- The word whose first byte is at `offset`, zero where fewer than four bytes are left. -/
def wordAt (bytes : Bytes) (offset : Nat) : UInt32 :=
  match bytes.drop offset with
  | first :: second :: third :: fourth :: _ => joinBytes first second third fourth
  | _ => 0

/-- The whole words of a byte string; one to three bytes at the end are left out. -/
def words : Bytes → List UInt32
  | first :: second :: third :: fourth :: rest => joinBytes first second third fourth :: words rest
  | _ => []

/-- The whole halfwords of a byte string. -/
def halves : Bytes → List (UInt8 × UInt8)
  | first :: second :: rest => (first, second) :: halves rest
  | _ => []

/-- `length` bytes from `offset` on, fewer if the byte string ends before. -/
def slice (bytes : Bytes) (offset length : Nat) : Bytes :=
  (bytes.drop offset).take length

/-- Replaces the bytes from `offset` on by `data`, without growing the byte string. -/
def overwrite (bytes : Bytes) (offset : Nat) (data : Bytes) : Bytes :=
  bytes.take offset ++ data.take (bytes.length - offset) ++ bytes.drop (offset + data.length)

@[simp] theorem length_overwrite (bytes : Bytes) (offset : Nat) (data : Bytes) :
    (overwrite bytes offset data).length = bytes.length := by
  simp only [overwrite, List.length_append, List.length_take, List.length_drop]
  omega

/-- The byte at a position after a write is the new one exactly where the write reached. -/
theorem getElem?_overwrite (bytes : Bytes) (offset : Nat) (data : Bytes) (position : Nat) :
    (overwrite bytes offset data)[position]? =
      if offset ≤ position ∧ position < offset + data.length ∧ position < bytes.length then
        data[position - offset]?
      else bytes[position]? := by
  by_cases inside : position < bytes.length
  · have first : offset ≤ position → (bytes.take offset).length = offset := by
      intro order
      rw [List.length_take]
      omega
    have second : offset ≤ position →
        (data.take (bytes.length - offset)).length = min (bytes.length - offset) data.length := by
      intro _
      exact List.length_take
    unfold overwrite
    by_cases before : position < offset
    · rw [if_neg (by omega), List.append_assoc, List.getElem?_append_left,
        List.getElem?_take_of_lt before]
      rw [List.length_take]
      omega
    · have order := Nat.le_of_not_lt before
      by_cases written : position < offset + data.length
      · rw [if_pos ⟨order, written, inside⟩, List.getElem?_append_left,
          List.getElem?_append_right, first order, List.getElem?_take_of_lt (by omega)]
        · rw [first order]
          exact order
        · rw [List.length_append, first order, second order]
          omega
      · rw [if_neg (by omega), List.getElem?_append_right, List.getElem?_drop, List.length_append,
          first order, second order]
        · congr 1
          omega
        · rw [List.length_append, first order, second order]
          omega
  · have beyond := Nat.le_of_not_lt inside
    rw [if_neg (by omega), List.getElem?_eq_none beyond,
      List.getElem?_eq_none (by rw [length_overwrite]; exact beyond)]

@[simp] theorem overwrite_nil (bytes : Bytes) (offset : Nat) :
    overwrite bytes offset [] = bytes := by
  simp [overwrite]

/-- Bytes can be written one after the other. -/
theorem overwrite_cons (bytes : Bytes) (offset : Nat) (first : UInt8) (rest : Bytes) :
    overwrite bytes offset (first :: rest) =
      overwrite (bytes.set offset first) (offset + 1) rest := by
  apply List.ext_getElem?
  intro position
  simp only [getElem?_overwrite, List.length_cons, List.length_set, List.getElem?_set]
  by_cases here : offset = position
  · subst here
    by_cases inside : offset < bytes.length
    · rw [if_pos (by omega), if_neg (by omega), if_pos rfl, if_pos inside, Nat.sub_self]
      rfl
    · rw [if_neg (by omega), if_neg (by omega), if_pos rfl, if_neg inside]
      exact List.getElem?_eq_none (Nat.le_of_not_lt inside)
  · rw [if_neg here]
    by_cases written : offset + 1 ≤ position ∧ position < offset + 1 + rest.length ∧
        position < bytes.length
    · have step : position - offset = position - (offset + 1) + 1 := by omega
      rw [if_pos (by omega), if_pos written, step, List.getElem?_cons_succ]
    · rw [if_neg (by omega), if_neg written]

/-- The least multiple of `unit` that is not below `number`. -/
def roundUp (number unit : Nat) : Nat :=
  (number + unit - 1) / unit * unit

/-- Appends zeros up to a multiple of `unit`. -/
def padTo (unit : Nat) (bytes : Bytes) : Bytes :=
  bytes ++ List.replicate (roundUp bytes.length unit - bytes.length) 0

/-- The first offset at which `pattern` stands in a byte string, counted from `offset`. -/
def findPatternFrom? (pattern : Bytes) (offset : Nat) : Bytes → Option Nat
  | [] => none
  | first :: rest =>
    if pattern.isPrefixOf (first :: rest) then some offset
    else findPatternFrom? pattern (offset + 1) rest

/-- The first offset at which a non-empty `pattern` stands in a byte string. -/
def findPattern? (pattern bytes : Bytes) : Option Nat :=
  findPatternFrom? pattern 0 bytes

/-- The offset of the first whole word equal to `word`, counted from `offset`. -/
def findWordFrom? (word : UInt32) (offset : Nat) : Bytes → Option Nat
  | first :: second :: third :: fourth :: rest =>
    if joinBytes first second third fourth = word then some offset
    else findWordFrom? word (offset + 4) rest
  | _ => none

/-- The first offset, a multiple of four, at which `word` stands in a byte string. -/
def findWord? (word : UInt32) (bytes : Bytes) : Option Nat :=
  findWordFrom? word 0 bytes

end CubePatch
