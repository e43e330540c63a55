import CubePatch.Hexadecimal
import Mathlib.Algebra.Group.Nat.Defs
import Mathlib.Data.List.Induction

/-!
Hexadecimal digits that are read, and digits that are printed.

A digit is read in either case, and its value is the one that is printed as that digit. So digits
are read as a number exactly if they are the digits of the number, as many as there are.
-/
namespace CubePatch

/-- The last `count` hexadecimal digits of a number, in lower case. -/
def hexSpelling : Nat → Nat → List Char
  | 0, _ => []
  | count + 1, number => hexSpelling count (number / 16) ++ [Nat.digitChar (number % 16)]

@[simp] theorem length_hexSpelling (count number : Nat) :
    (hexSpelling count number).length = count := by
  induction count generalizing number with
  | zero => rfl
  | succ count ih => simp [hexSpelling, ih]

theorem mem_hexSpelling {count number : Nat} {c : Char} (member : c ∈ hexSpelling count number) :
    ∃ value < 16, c = Nat.digitChar value := by
  induction count generalizing number with
  | zero => cases member
  | succ count ih =>
    obtain before | last := List.mem_append.mp member
    · exact ih before
    · exact ⟨number % 16, Nat.mod_lt _ (by decide), List.mem_singleton.mp last⟩

theorem toNat_toLower (c : Char) :
    c.toLower.toNat = if 65 ≤ c.toNat ∧ c.toNat ≤ 90 then c.toNat + 32 else c.toNat := by
  have upper : ('A'.val ≤ c.val ∧ c.val ≤ 'Z'.val) ↔ 65 ≤ c.toNat ∧ c.toNat ≤ 90 := by
    rw [UInt32.le_iff_toNat_le, UInt32.le_iff_toNat_le]
    rfl
  unfold Char.toLower
  by_cases inside : 65 ≤ c.toNat ∧ c.toNat ≤ 90
  · rw [dif_pos (upper.mpr inside), if_pos inside]
    show (c.val.toNat + 32) % 2 ^ 32 = c.val.toNat + 32
    have : c.val.toNat ≤ 90 := inside.2
    omega
  · rw [dif_neg (inside ∘ upper.mp), if_neg inside]

theorem toNat_digitChar : ∀ value < 16,
    (Nat.digitChar value).toNat = if value < 10 then 48 + value else 87 + value := by
  decide

/-- A digit has the value whose printed digit it is in lower case. -/
theorem hexDigit?_eq_some_iff (c : Char) (value : Nat) :
    hexDigit? c = some value ↔ value < 16 ∧ c.toLower = Nat.digitChar value := by
  have digit : value < 16 → (c.toLower = Nat.digitChar value ↔
      (if 65 ≤ c.toNat ∧ c.toNat ≤ 90 then c.toNat + 32 else c.toNat) =
        if value < 10 then 48 + value else 87 + value) := by
    intro small
    rw [← Char.toNat_inj, toNat_toLower, toNat_digitChar value small]
  have order (first second : Char) : first ≤ second ↔ first.toNat ≤ second.toNat := by
    rw [Char.le_def, UInt32.le_iff_toNat_le]
    rfl
  have bounds : '0'.toNat = 48 ∧ '9'.toNat = 57 ∧ 'a'.toNat = 97 ∧ 'f'.toNat = 102 ∧
      'A'.toNat = 65 ∧ 'F'.toNat = 70 := by decide
  rw [and_congr_right digit]
  simp only [hexDigit?, order, bounds]
  grind

theorem exists_hexValues_iff (digits : List Char) (number : Nat) :
    (∃ values, digits.mapM hexDigit? = some values ∧
        values.foldl (fun number digit => number * 16 + digit) 0 = number) ↔
      number < 16 ^ digits.length ∧
        digits.map Char.toLower = hexSpelling digits.length number := by
  -- the fold takes the last digit last, so the digits are taken off from behind
  induction digits using List.reverseRecOn generalizing number with
  | nil => simp [hexSpelling, eq_comm]
  | append_singleton front last ih =>
    have step (values : List Nat) : (front ++ [last]).mapM hexDigit? = some values ↔
        ∃ before value, front.mapM hexDigit? = some before ∧ hexDigit? last = some value ∧
          before ++ [value] = values := by
      simp [List.mapM_append, Option.bind_eq_some_iff]
    have bound : number < 16 ^ (front.length + 1) ↔ number / 16 < 16 ^ front.length := by
      rw [Nat.pow_succ, Nat.div_lt_iff_lt_mul (by decide)]
    have digits : (front ++ [last]).map Char.toLower = hexSpelling (front.length + 1) number ↔
        front.map Char.toLower = hexSpelling front.length (number / 16) ∧
          last.toLower = Nat.digitChar (number % 16) := by
      rw [List.map_append, hexSpelling]
      constructor
      · intro same
        simpa using List.append_inj' same rfl
      · rintro ⟨before, digit⟩
        rw [before, List.map_singleton, digit]
    rw [List.length_append, List.length_singleton, bound, digits, ← and_assoc, ← ih (number / 16)]
    constructor
    · rintro ⟨values, read, rfl⟩
      obtain ⟨before, value, first, later, rfl⟩ := (step values).mp read
      obtain ⟨small, digit⟩ := (hexDigit?_eq_some_iff _ _).mp later
      rw [List.foldl_append, List.foldl_cons, List.foldl_nil]
      refine ⟨⟨before, first, by omega⟩, ?_⟩
      rw [digit]
      congr 1
      omega
    · rintro ⟨⟨before, first, front_eq⟩, digit⟩
      refine ⟨before ++ [number % 16], (step _).mpr ⟨before, _, first,
        (hexDigit?_eq_some_iff _ _).mpr ⟨Nat.mod_lt _ (by decide), digit⟩, rfl⟩, ?_⟩
      rw [List.foldl_append, List.foldl_cons, List.foldl_nil, front_eq]
      omega

/-- Digits are letters and decimal digits, so no mark and no white space is one. -/
theorem toNat_of_hexDigit? {c : Char} {value : Nat} (digit : hexDigit? c = some value) :
    48 ≤ c.toNat ∧ c.toNat ≤ 102 := by
  obtain ⟨small, lower⟩ := (hexDigit?_eq_some_iff c value).mp digit
  have number := congrArg Char.toNat lower
  rw [toNat_toLower, toNat_digitChar value small] at number
  split at number <;> split at number <;> omega

end CubePatch
