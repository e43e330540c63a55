import CubePatch.Cipher
import CubePatch.Proofs.Bytes
import Mathlib.Algebra.Group.Nat.Defs

/-!
The code cipher is its own inverse, and a scrambled key stands for the key it was made from.

The key a word meets depends on the index of the word alone, so the second pass meets each word with
the key of the first one. In front of the word with the index `i` the advances of the key add up to
`4 * i * (i - 1)`, so the key of a word can be told without the keys before it.

## Main result

`xorWords_exact`: which key each word meets, where the cipher may be taken apart, and that both the
cipher and the scrambling of a key can be undone.
-/
namespace CubePatch

theorem xorWordsFrom_xorWordsFrom (index : Nat) (key : UInt32) :
    ∀ bytes : Bytes, xorWordsFrom index key (xorWordsFrom index key bytes) = bytes
  | first :: second :: third :: fourth :: rest => by
    have later := xorWordsFrom_xorWordsFrom (index + 1) (key + UInt32.ofNat index * 8) rest
    simp only [wordBytes, List.cons_append, List.nil_append, xorWordsFrom, joinBytes_of_wordBytes,
      later]
    rw [UInt32.xor_assoc, UInt32.xor_self, UInt32.xor_zero]
    exact congrArg (· ++ rest) (wordBytes_joinBytes first second third fourth)
  | [] | [_] | [_, _] | [_, _, _] => rfl

theorem xorWords_xorWords (key : UInt32) (bytes : Bytes) :
    xorWords key (xorWords key bytes) = bytes :=
  xorWordsFrom_xorWordsFrom 0 key bytes

private theorem xor_xor_cancel (byte other : UInt8) : byte ^^^ other ^^^ other = byte := by
  rw [UInt8.xor_assoc, UInt8.xor_self, UInt8.xor_zero]

theorem unscrambleKey_scrambleKey (key : UInt32) : unscrambleKey (scrambleKey key) = key := by
  unfold scrambleKey
  extract_lets fourth third second first
  have held := wordBytes_joinBytes first second third fourth
  simp only [wordBytes, List.cons.injEq, and_true] at held
  obtain ⟨h₁, h₂, h₃, h₄⟩ := held
  simp only [unscrambleKey, h₁, h₂, h₃, h₄]
  rw [xor_xor_cancel _ fourth, xor_xor_cancel _ third, xor_xor_cancel _ second]
  exact joinBytes_of_wordBytes key

/-- Every word is the scrambled form of some key. -/
theorem scrambleKey_unscrambleKey (held : UInt32) : scrambleKey (unscrambleKey held) = held := by
  unfold unscrambleKey
  extract_lets first second third fourth
  have key := wordBytes_joinBytes fourth (third ^^^ fourth) (second ^^^ third) (first ^^^ second)
  simp only [wordBytes, List.cons.injEq, and_true] at key
  obtain ⟨h₁, h₂, h₃, h₄⟩ := key
  -- the chain is undone from the byte that was not combined with another one
  simp only [scrambleKey, h₁, h₂, h₃, h₄, xor_xor_cancel]
  exact joinBytes_of_wordBytes held

/-! ### The key of a word -/

/-- The key that the word with the given index meets. -/
def keyAt (key : UInt32) (index : Nat) : UInt32 :=
  key + UInt32.ofNat (4 * index * (index - 1))

/-- The first two words meet the same key. -/
example : (List.range 4).map (keyAt 0x10000000) =
    [0x10000000, 0x10000000, 0x10000008, 0x10000018] := by decide

@[simp] theorem keyAt_zero (key : UInt32) : keyAt key 0 = key :=
  UInt32.add_zero key

/-- Behind a word the key advances by eight times the index of the word. -/
theorem keyAt_succ (key : UInt32) (index : Nat) :
    keyAt key (index + 1) = keyAt key index + UInt32.ofNat index * 8 := by
  have grown : 4 * (index + 1) * (index + 1 - 1) = 4 * index * (index - 1) + index * 8 := by
    cases index with
    | zero => rfl
    | succ before =>
      simp only [Nat.add_sub_cancel, Nat.mul_add, Nat.add_mul]
      omega
  have step : UInt32.ofNat (index * 8) = UInt32.ofNat index * 8 := UInt32.ofNat_mul index 8
  rw [keyAt, grown, UInt32.ofNat_add, step, ← UInt32.add_assoc, keyAt]

theorem keyAt_eq_iff (key : UInt32) (index other : Nat) :
    keyAt key index = keyAt key other ↔
      4 * index * (index - 1) % 2 ^ 32 = 4 * other * (other - 1) % 2 ^ 32 := by
  rw [keyAt, keyAt, UInt32.add_right_inj, ← UInt32.toNat_inj, UInt32.toNat_ofNat',
    UInt32.toNat_ofNat']

/-- What the advances up to a later word add to those up to an earlier one. -/
private theorem advance_add (count index : Nat) :
    4 * (count + index) * (count + index - 1) =
      4 * index * (index - 1) + 4 * count * (count + 2 * index - 1) := by
  cases index with
  | zero => simp only [Nat.add_zero, Nat.mul_zero, Nat.zero_mul, Nat.zero_add]
  | succ before =>
    have last : count + 2 * (before + 1) - 1 = count + 2 * before + 1 := by omega
    have swapped := Nat.mul_comm count before
    have doubled := Nat.mul_left_comm count 2 before
    rw [last, ← Nat.add_assoc, Nat.add_sub_cancel, Nat.add_sub_cancel]
    simp only [Nat.mul_add, Nat.add_mul, Nat.mul_assoc]
    omega

/-- The keys come again after `2 ^ 30` words. -/
theorem keyAt_add_of_dvd (key : UInt32) {count : Nat} (turn : 2 ^ 30 ∣ count) (index : Nat) :
    keyAt key (count + index) = keyAt key index := by
  have whole : 2 ^ 32 ∣ 4 * count * (count + 2 * index - 1) :=
    Nat.dvd_mul_right_of_dvd (by omega) _
  rw [keyAt_eq_iff, advance_add]
  omega

/-- Two words that meet the first two keys come after a whole number of turns. -/
theorem dvd_of_keyAt_eq {key : UInt32} {count : Nat} (first : keyAt key count = keyAt key 0)
    (second : keyAt key (count + 1) = keyAt key 1) : 2 ^ 30 ∣ count := by
  rw [keyAt_eq_iff, Nat.mul_assoc] at first second
  have later : (count + 1) * (count + 1 - 1) = count * (count - 1) + 2 * count := by
    cases count with
    | zero => rfl
    | succ before =>
      simp only [Nat.add_sub_cancel, Nat.mul_add, Nat.add_mul]
      omega
  rw [later] at second
  have both : 2 ^ 30 ∣ count * (count - 1) := by omega
  -- the two products differ by twice the count, which is therefore even
  have even : 2 ∣ count := by omega
  obtain rfl | positive := Nat.eq_zero_or_pos count
  · exact Nat.dvd_zero _
  · have odd : (2 ^ 30).Coprime (count - 1) := by
      have remainder : (count - 1) % 2 = 1 := by omega
      refine Nat.Coprime.pow_left 30 ?_
      rw [Nat.Coprime, Nat.gcd_rec, remainder]
      exact Nat.gcd_one_left 2
    exact odd.dvd_of_dvd_mul_right both

/-! ### Words and what is left of them -/

theorem words_wordBytes_append (word : UInt32) (rest : Bytes) :
    words (wordBytes word ++ rest) = word :: words rest := by
  simp only [wordBytes, List.cons_append, List.nil_append, words, joinBytes_of_wordBytes]

theorem words_xorWordsFrom (start : Nat) (key : UInt32) :
    ∀ bytes : Bytes, words (xorWordsFrom start (keyAt key start) bytes) =
      (words bytes).mapIdx fun index word => word ^^^ keyAt key (start + index)
  | first :: second :: third :: fourth :: rest => by
    have later := words_xorWordsFrom (start + 1) key rest
    rw [xorWordsFrom, ← keyAt_succ, words_wordBytes_append, later, words, List.mapIdx_cons]
    simp only [Nat.add_zero, Nat.add_assoc, Nat.add_comm 1]
  | [] | [_] | [_, _] | [_, _, _] => rfl

/-- The bytes behind the last whole word. -/
def looseBytes (bytes : Bytes) : Bytes :=
  bytes.drop (bytes.length / 4 * 4)

theorem looseBytes_wordBytes_append (word : UInt32) (rest : Bytes) :
    looseBytes (wordBytes word ++ rest) = looseBytes rest := by
  have whole : (rest.length + 4) / 4 * 4 = rest.length / 4 * 4 + 4 := by omega
  simp only [looseBytes, wordBytes, List.cons_append, List.nil_append, List.length_cons, whole,
    List.drop_succ_cons]

theorem looseBytes_xorWordsFrom (start : Nat) (key : UInt32) :
    ∀ bytes : Bytes, looseBytes (xorWordsFrom start key bytes) = looseBytes bytes
  | first :: second :: third :: fourth :: rest => by
    rw [xorWordsFrom, looseBytes_wordBytes_append, looseBytes_xorWordsFrom,
      ← looseBytes_wordBytes_append (joinBytes first second third fourth), wordBytes_joinBytes]
    rfl
  | [] | [_] | [_, _] | [_, _, _] => rfl

/-! ### Taking the cipher apart -/

/-- Behind some whole words the cipher goes on with the key of the next one. -/
theorem xorWordsFrom_append (start : Nat) (key : UInt32) (back : Bytes) :
    ∀ front : Bytes, 4 ∣ front.length →
      xorWordsFrom start (keyAt key start) (front ++ back) =
        xorWordsFrom start (keyAt key start) front ++
          xorWordsFrom (start + front.length / 4) (keyAt key (start + front.length / 4)) back
  | first :: second :: third :: fourth :: rest => by
    intro whole
    simp only [List.length_cons] at whole
    have later := xorWordsFrom_append (start + 1) key back rest (by omega)
    have count : start + (rest.length + 4) / 4 = start + 1 + rest.length / 4 := by omega
    simp only [List.cons_append, xorWordsFrom, ← keyAt_succ, later, List.append_assoc,
      List.length_cons, count]
  | [] => fun _ => rfl
  | [_] | [_, _] | [_, _, _] => by
    intro whole
    simp at whole

theorem xorWords_append (key : UInt32) {front : Bytes} (whole : 4 ∣ front.length) (back : Bytes) :
    xorWords key (front ++ back) = xorWords key front ++
      xorWordsFrom (front.length / 4) (keyAt key (front.length / 4)) back := by
  have parts := xorWordsFrom_append 0 key back front whole
  rwa [keyAt_zero, Nat.zero_add] at parts

private theorem xorWordsFrom_congr (key : UInt32) (start other : Nat) :
    ∀ bytes : Bytes,
      (∀ index < bytes.length / 4, keyAt key (start + index) = keyAt key (other + index)) →
      xorWordsFrom start (keyAt key start) bytes = xorWordsFrom other (keyAt key other) bytes
  | first :: second :: third :: fourth :: rest => by
    intro same
    have here := same 0 (by simp only [List.length_cons]; omega)
    have later := xorWordsFrom_congr key (start + 1) (other + 1) rest fun index inside => by
      have next := same (index + 1) (by simp only [List.length_cons]; omega)
      rwa [Nat.add_right_comm, Nat.add_right_comm other, Nat.add_assoc, Nat.add_assoc other]
    simp only [Nat.add_zero] at here
    rw [xorWordsFrom, xorWordsFrom, ← keyAt_succ, ← keyAt_succ, later, here]
  | [] | [_] | [_, _] | [_, _, _] => fun _ => rfl

/-- From two places on the cipher does the same exactly if the same keys follow them. -/
theorem xorWordsFrom_eq_iff (key : UInt32) (start other : Nat) (bytes : Bytes) :
    xorWordsFrom start (keyAt key start) bytes = xorWordsFrom other (keyAt key other) bytes ↔
      ∀ index < bytes.length / 4, keyAt key (start + index) = keyAt key (other + index) := by
  constructor
  · intro same index inside
    have there := congrArg (fun out => (words out)[index]?) same
    simp only [words_xorWordsFrom, List.getElem?_mapIdx, getElem?_words] at there
    rw [if_pos (by omega)] at there
    exact (UInt32.xor_right_inj _).mp (Option.some.inj there)
  · exact xorWordsFrom_congr key start other bytes

/-- Two parts may be encrypted apart exactly if the keys begin again between them. -/
theorem xorWords_append_iff (key : UInt32) {front : Bytes} (whole : 4 ∣ front.length)
    (back : Bytes) :
    xorWords key (front ++ back) = xorWords key front ++ xorWords key back ↔
      ∀ index < back.length / 4, keyAt key (front.length / 4 + index) = keyAt key index := by
  have same := xorWordsFrom_eq_iff key (front.length / 4) 0 back
  simp only [keyAt_zero, Nat.zero_add] at same
  rw [xorWords_append key whole, List.append_cancel_left_eq, ← same, xorWords]

/-- Two words or more may be encrypted apart only behind a multiple of four gibibytes. -/
theorem xorWords_append_iff_dvd (key : UInt32) {front back : Bytes} (whole : 4 ∣ front.length)
    (long : 8 ≤ back.length) :
    xorWords key (front ++ back) = xorWords key front ++ xorWords key back ↔
      2 ^ 32 ∣ front.length := by
  rw [xorWords_append_iff key whole]
  constructor
  · intro again
    have turn := dvd_of_keyAt_eq (again 0 (by omega)) (again 1 (by omega))
    omega
  · intro turn index _
    exact keyAt_add_of_dvd key (by omega) index

/-- The word with the index `i` meets the key advanced by `4 * i * (i - 1)`, whatever the bytes are,
and bytes behind the last word stay. So encrypting twice gives the bytes back, and what stands
behind some words meets the keys that follow theirs; it may be encrypted by itself only if these are
the first keys again. Scrambling and unscrambling a key undo each other. -/
theorem xorWords_exact (key : UInt32) :
    (∀ bytes : Bytes,
      (xorWords key bytes).length = bytes.length ∧
      words (xorWords key bytes) =
        (words bytes).mapIdx (fun index word => word ^^^ keyAt key index) ∧
      looseBytes (xorWords key bytes) = looseBytes bytes ∧
      xorWords key (xorWords key bytes) = bytes) ∧
    (∀ front back : Bytes, 4 ∣ front.length →
      (∃ rest, xorWords key (front ++ back) = xorWords key front ++ rest ∧
        rest.length = back.length ∧
        words rest = (words back).mapIdx (fun index word =>
          word ^^^ keyAt key (front.length / 4 + index)) ∧
        looseBytes rest = looseBytes back) ∧
      (xorWords key (front ++ back) = xorWords key front ++ xorWords key back ↔
        ∀ index < back.length / 4, keyAt key (front.length / 4 + index) = keyAt key index) ∧
      (8 ≤ back.length →
        (xorWords key (front ++ back) = xorWords key front ++ xorWords key back ↔
          2 ^ 32 ∣ front.length))) ∧
    unscrambleKey (scrambleKey key) = key ∧ scrambleKey (unscrambleKey key) = key := by
  refine ⟨?_, ?_, unscrambleKey_scrambleKey key, scrambleKey_unscrambleKey key⟩
  · intro bytes
    have each := words_xorWordsFrom 0 key bytes
    simp only [keyAt_zero, Nat.zero_add] at each
    exact ⟨length_xorWords key bytes, each, looseBytes_xorWordsFrom 0 key bytes,
      xorWords_xorWords key bytes⟩
  · intro front back whole
    refine ⟨?_, xorWords_append_iff key whole back, xorWords_append_iff_dvd key whole⟩
    exact ⟨_, xorWords_append key whole back, length_xorWordsFrom _ _ back,
      words_xorWordsFrom _ key back, looseBytes_xorWordsFrom _ _ back⟩

/-- Already the third word tells whether the key was taken along. -/
theorem xorWords_exact_zeros :
    4 ∣ (List.replicate 8 (0 : UInt8)).length ∧
    8 ≤ (List.replicate 9 (0 : UInt8)).length ∧
    xorWords 0x10000000 (List.replicate 8 0 ++ List.replicate 9 0) ≠
      xorWords 0x10000000 (List.replicate 8 0) ++ xorWords 0x10000000 (List.replicate 9 0) := by
  have whole : 4 ∣ (List.replicate 8 (0 : UInt8)).length := by decide
  have long : 8 ≤ (List.replicate 9 (0 : UInt8)).length := by decide
  have apart := ((xorWords_exact 0x10000000).2.1 _ _ whole).2.2 long
  exact ⟨whole, long, fun same => absurd (apart.mp same) (by decide)⟩

end CubePatch
