import CubePatch.Bytes
import Mathlib.Order.Nat

/-!
Searches that go from the front to the back.

A search that looks at one place after the other finds what is at the least place where there is
something to be found. A pattern of bytes is found at the least place where it stands.
-/
namespace CubePatch

theorem findSome?_range_succ (count : Nat) (found : Nat → Option β) :
    (List.range (count + 1)).findSome? found =
      (found 0).or ((List.range count).findSome? fun place => found (place + 1)) := by
  rw [List.range_succ_eq_map, List.findSome?_cons, List.findSome?_map]
  cases found 0 <;> rfl

/-- A search from the front finds what is at the first place where there is something. -/
theorem findSome?_range_eq_some_iff {count : Nat} {found : Nat → Option β}
    (bounded : ∀ place value, found place = some value → place < count) (value : β) :
    (List.range count).findSome? found = some value ↔
      ∃ place, IsLeast {place | ∃ any, found place = some any} place ∧
        found place = some value := by
  -- behind its first place the search is the same one, for what is found one place further on
  induction count generalizing found with
  | zero =>
    have nothing (place : Nat) : found place ≠ some value :=
      fun hit => Nat.not_lt_zero _ (bounded place value hit)
    simp [nothing]
  | succ count ih =>
    rw [findSome?_range_succ]
    cases here : found 0 with
    | some first =>
      have least : IsLeast {place | ∃ any, found place = some any} 0 :=
        ⟨⟨first, here⟩, fun place _ => Nat.zero_le place⟩
      constructor
      · intro same
        exact ⟨0, least, here.trans same⟩
      · rintro ⟨place, earliest, hit⟩
        obtain rfl : place = 0 := Nat.le_zero.mp (earliest.2 least.1)
        exact here.symm.trans hit
    | none =>
      have later := @ih (fun place => found (place + 1))
        fun place any hit => Nat.lt_of_succ_lt_succ (bounded (place + 1) any hit)
      rw [Option.none_or, later]
      constructor
      · rintro ⟨place, ⟨inside, least⟩, hit⟩
        refine ⟨place + 1, ⟨inside, ?_⟩, hit⟩
        rintro (_ | other) ⟨any, found_other⟩
        · rw [here] at found_other
          cases found_other
        · exact Nat.succ_le_succ (least ⟨any, found_other⟩)
      · rintro ⟨_ | place, ⟨inside, least⟩, hit⟩
        · rw [here] at hit
          cases hit
        · exact ⟨place, ⟨inside, fun other standing => Nat.le_of_succ_le_succ (least standing)⟩, hit⟩

/-! ### Patterns -/

/-- A pattern stands at a place of a byte string. -/
def StandsAt (pattern bytes : Bytes) (place : Nat) : Prop :=
  pattern <+: bytes.drop place

theorem StandsAt.add_length_le {pattern bytes : Bytes} {place : Nat} (nonempty : pattern ≠ [])
    (stands : StandsAt pattern bytes place) : place + pattern.length ≤ bytes.length := by
  have shorter := List.IsPrefix.length_le stands
  have some_bytes := List.length_pos_iff.mpr nonempty
  rw [List.length_drop] at shorter
  omega

theorem findPatternFrom?_eq (pattern : Bytes) (offset : Nat) (bytes : Bytes) :
    findPatternFrom? pattern offset bytes =
      (List.range bytes.length).findSome? fun place =>
        if pattern.isPrefixOf (bytes.drop place) then some (offset + place) else none := by
  induction bytes generalizing offset with
  | nil => rfl
  | cons first rest ih =>
    rw [findPatternFrom?, List.length_cons, findSome?_range_succ, List.drop_zero, Nat.add_zero, ih]
    simp only [List.drop_succ_cons, Nat.add_assoc, Nat.add_comm 1]
    split <;> rfl

/-- A pattern is found at the first of the places where it stands. -/
theorem findPattern?_eq_some_iff {pattern bytes : Bytes} (nonempty : pattern ≠ []) (place : Nat) :
    findPattern? pattern bytes = some place ↔ IsLeast {place | StandsAt pattern bytes place} place := by
  have hit (here found : Nat) :
      (if pattern.isPrefixOf (bytes.drop here) then some (0 + here) else none) = some found ↔
        StandsAt pattern bytes here ∧ here = found := by
    simp [StandsAt]
  rw [findPattern?, findPatternFrom?_eq, findSome?_range_eq_some_iff]
  · simp only [hit, exists_and_left, exists_eq', and_true]
    constructor
    · rintro ⟨here, least, -, rfl⟩
      exact least
    · intro least
      exact ⟨place, least, least.1, rfl⟩
  · intro here found same
    have inside := ((hit here found).mp same).1.add_length_le nonempty
    have some_bytes := List.length_pos_iff.mpr nonempty
    omega

theorem findPattern?_eq_none_iff {pattern bytes : Bytes} (nonempty : pattern ≠ []) :
    findPattern? pattern bytes = none ↔ ∀ place, ¬ StandsAt pattern bytes place := by
  classical
  constructor
  · intro missing place stands
    -- what stands somewhere has a first place where it stands
    have least := Nat.isLeast_find (p := StandsAt pattern bytes) ⟨place, stands⟩
    rw [(findPattern?_eq_some_iff nonempty _).mpr least] at missing
    cases missing
  · intro nowhere
    refine Option.eq_none_iff_forall_ne_some.mpr fun place found => ?_
    exact nowhere place ((findPattern?_eq_some_iff nonempty place).mp found).1

end CubePatch
