import CubePatch.Payload.Bootstrap
import CubePatch.Proofs.Bytes

/-!
What stands in a loader after its tokens were filled in.

A token is told by where it is and by what stands there in the loader as it was shipped. No two
tokens share a byte, so each of them holds its value at the end, in whatever order they were filled.
-/
namespace CubePatch

/-! ### Halves of words -/

/-- The halfword whose first byte is at `offset`, zero where fewer than two bytes are left. -/
def halfAt (bytes : Bytes) (offset : Nat) : UInt16 :=
  match bytes.drop offset with
  | first :: second :: _ => joinHalf first second
  | _ => 0

theorem toNat_joinHalf (first second : UInt8) :
    (joinHalf first second).toNat = first.toNat * 0x100 + second.toNat := by
  have h₁ := first.toNat_lt
  have h₂ := second.toNat_lt
  have shifted : first.toNat <<< 8 % 0x10000 = first.toNat <<< 8 := by
    apply Nat.mod_eq_of_lt
    rw [Nat.shiftLeft_eq]
    omega
  simp only [joinHalf, UInt16.toNat_or, UInt16.toNat_shiftLeft, UInt8.toNat_toUInt16,
    UInt16.reduceToNat, Nat.reduceMod, Nat.reducePow]
  rw [shifted, ← Nat.shiftLeft_add_eq_or_of_lt h₂, Nat.shiftLeft_eq]

theorem upperHalf_joinBytes (first second third fourth : UInt8) :
    upperHalf (joinBytes first second third fourth) = joinHalf first second := by
  have h₁ := first.toNat_lt
  have h₂ := second.toNat_lt
  have h₃ := third.toNat_lt
  have h₄ := fourth.toNat_lt
  apply UInt16.toNat_inj.mp
  simp [upperHalf, toNat_joinBytes, toNat_joinHalf, UInt32.toNat_shiftRight,
    Nat.shiftRight_eq_div_pow]
  omega

theorem lowerHalf_joinBytes (first second third fourth : UInt8) :
    lowerHalf (joinBytes first second third fourth) = joinHalf third fourth := by
  have h₃ := third.toNat_lt
  have h₄ := fourth.toNat_lt
  apply UInt16.toNat_inj.mp
  simp [lowerHalf, toNat_joinBytes, toNat_joinHalf]
  omega

/-- The halves of a word are the halfwords at its first and at its third byte. -/
theorem halves_wordAt {bytes : Bytes} {offset : Nat} (inside : offset + 4 ≤ bytes.length) :
    upperHalf (wordAt bytes offset) = halfAt bytes offset ∧
      lowerHalf (wordAt bytes offset) = halfAt bytes (offset + 2) := by
  have enough : 4 ≤ (bytes.drop offset).length := by rw [List.length_drop]; omega
  unfold wordAt halfAt
  rw [← List.drop_drop]
  generalize bytes.drop offset = tail at enough ⊢
  rcases tail with _ | ⟨a, _ | ⟨b, _ | ⟨c, _ | ⟨d, rest⟩⟩⟩⟩ <;> simp at enough
  exact ⟨upperHalf_joinBytes a b c d, lowerHalf_joinBytes a b c d⟩

namespace Token

/-! ### Where tokens are -/

/-- How many bytes a token takes. -/
def width : Token → Nat
  | .heap | .loaderSize | .handlerSize | .codeSize | .hook | .crypt | .key => 4
  | .heapUpper | .heapLower | .keyUpper | .keyLower | .entryUpper | .entryLower => 2

/-- A word token stands at an offset. -/
def IsWordIn (bytes : Bytes) (offset : Nat) (token : Token) : Prop :=
  4 ∣ offset ∧ offset + 4 ≤ bytes.length ∧ wordTokens.lookup (wordAt bytes offset) = some token

/-- A half token stands at an offset, in a word that is no token itself. -/
def IsHalfIn (bytes : Bytes) (offset : Nat) (token : Token) : Prop :=
  2 ∣ offset ∧ offset + 2 ≤ bytes.length ∧ halfTokens.lookup (halfAt bytes offset) = some token ∧
    ∀ other, ¬ IsWordIn bytes (offset / 4 * 4) other

theorem mem_wordsIn_iff (bytes : Bytes) (offset : Nat) (token : Token) :
    (offset, token) ∈ wordsIn bytes ↔ IsWordIn bytes offset token := by
  simp only [wordsIn, List.mem_filterMap, Prod.exists, List.mk_mem_zipIdx_iff_getElem?,
    getElem?_words, Option.map_eq_some_iff, Prod.mk.injEq]
  constructor
  · rintro ⟨word, index, stands, other, found, rfl, rfl⟩
    split at stands
    next inside =>
      cases stands
      exact ⟨⟨index, Nat.mul_comm index 4⟩, inside, found⟩
    · cases stands
  · rintro ⟨⟨index, rfl⟩, inside, found⟩
    rw [Nat.mul_comm] at inside found
    exact ⟨_, index, if_pos inside, token, found, Nat.mul_comm index 4, rfl⟩

private theorem mem_ofHalf_iff (offset place : Nat) (half : UInt16) (token : Token) :
    (place, token) ∈ ofHalf offset half ↔
      place = offset ∧ halfTokens.lookup half = some token := by
  simp only [ofHalf, Option.mem_toList, Option.map_eq_some_iff, Prod.mk.injEq]
  constructor
  · rintro ⟨other, found, rfl, rfl⟩
    exact ⟨rfl, found⟩
  · rintro ⟨rfl, found⟩
    exact ⟨token, found, rfl, rfl⟩

theorem mem_ofHalves_iff (offset place : Nat) (word : UInt32) (token : Token) :
    (place, token) ∈ ofHalves offset word ↔
      wordTokens.lookup word = none ∧
        (place = offset ∧ halfTokens.lookup (upperHalf word) = some token ∨
          place = offset + 2 ∧ halfTokens.lookup (lowerHalf word) = some token) := by
  unfold ofHalves
  cases wordTokens.lookup word with
  | some other => simp
  | none => simp [mem_ofHalf_iff]

/-- The half behind the last whole word. -/
theorem mem_last_iff (bytes : Bytes) (stop place : Nat) (token : Token) :
    ((place, token) ∈
      match bytes.drop stop with
      | first :: second :: _ => ofHalf stop (joinHalf first second)
      | _ => []) ↔
      place = stop ∧ stop + 2 ≤ bytes.length ∧
        halfTokens.lookup (halfAt bytes stop) = some token := by
  have length : (bytes.drop stop).length = bytes.length - stop := List.length_drop
  unfold halfAt
  generalize bytes.drop stop = tail at length ⊢
  rcases tail with _ | ⟨first, _ | ⟨second, rest⟩⟩ <;>
    simp only [List.length_nil, List.length_cons] at length
  -- fewer than two bytes are left, and then there is no half
  · simp only [List.not_mem_nil, false_iff]
    omega
  · simp only [List.not_mem_nil, false_iff]
    omega
  · have inside : stop + 2 ≤ bytes.length := by omega
    simp only [mem_ofHalf_iff, inside, true_and]

theorem mem_halvesIn_iff (bytes : Bytes) (offset : Nat) (token : Token) :
    (offset, token) ∈ halvesIn bytes ↔ IsHalfIn bytes offset token := by
  rw [halvesIn, List.mem_append]
  refine (or_congr Iff.rfl (mem_last_iff bytes _ offset token)).trans ?_
  simp only [List.mem_flatMap, Prod.exists, List.mk_mem_zipIdx_iff_getElem?, getElem?_words,
    mem_ofHalves_iff]
  constructor
  · rintro (⟨word, index, stands, plain, half⟩ | ⟨rfl, inside, found⟩)
    · split at stands
      next inside =>
        cases stands
        obtain ⟨upper, lower⟩ := halves_wordAt inside
        have bare : ∀ other, ¬ IsWordIn bytes (index * 4) other := by
          rintro other ⟨-, -, found⟩
          rw [plain] at found
          cases found
        obtain ⟨rfl, found⟩ | ⟨rfl, found⟩ := half
        · have own : index * 4 / 4 * 4 = index * 4 := by omega
          exact ⟨by omega, by omega, upper ▸ found, own.symm ▸ bare⟩
        · have own : (index * 4 + 2) / 4 * 4 = index * 4 := by omega
          exact ⟨by omega, by omega, lower ▸ found, own.symm ▸ bare⟩
      · cases stands
    · refine ⟨by omega, inside, found, ?_⟩
      rintro other ⟨-, whole, -⟩
      omega
  · rintro ⟨even, inside, found, bare⟩
    -- a half is one of a whole word, unless it is the one behind the last of them
    by_cases whole : offset / 4 * 4 + 4 ≤ bytes.length
    · refine Or.inl ⟨_, offset / 4, if_pos whole, ?_, ?_⟩
      · cases plain : wordTokens.lookup (wordAt bytes (offset / 4 * 4)) with
        | none => rfl
        | some other => exact absurd ⟨by omega, whole, plain⟩ (bare other)
      · obtain ⟨upper, lower⟩ := halves_wordAt whole
        rw [upper, lower]
        by_cases first : offset = offset / 4 * 4
        · exact Or.inl ⟨first, first ▸ found⟩
        · have second : offset = offset / 4 * 4 + 2 := by omega
          exact Or.inr ⟨second, second ▸ found⟩
    · have last : offset = bytes.length / 4 * 4 := by omega
      exact Or.inr ⟨last, last ▸ inside, last ▸ found⟩

theorem mem_allIn_iff (bytes : Bytes) (offset : Nat) (token : Token) :
    (offset, token) ∈ allIn bytes ↔
      IsWordIn bytes offset token ∨ IsHalfIn bytes offset token := by
  rw [allIn, List.mem_append, mem_wordsIn_iff, mem_halvesIn_iff]

theorem IsWordIn.width_eq {bytes : Bytes} {offset : Nat} {token : Token}
    (stands : IsWordIn bytes offset token) : token.width = 4 := by
  obtain ⟨before, behind, split, -⟩ := List.lookup_eq_some_iff.mp stands.2.2
  have known : ∀ entry ∈ wordTokens, entry.2.width = 4 := by decide
  exact known (wordAt bytes offset, token) (by rw [split]; simp)

theorem IsHalfIn.width_eq {bytes : Bytes} {offset : Nat} {token : Token}
    (stands : IsHalfIn bytes offset token) : token.width = 2 := by
  obtain ⟨before, behind, split, -⟩ := List.lookup_eq_some_iff.mp stands.2.2.1
  have known : ∀ entry ∈ halfTokens, entry.2.width = 2 := by decide
  exact known (halfAt bytes offset, token) (by rw [split]; simp)

theorem inside_of_mem_allIn {bytes : Bytes} {offset : Nat} {token : Token}
    (member : (offset, token) ∈ allIn bytes) : offset + token.width ≤ bytes.length := by
  obtain word | half := (mem_allIn_iff bytes offset token).mp member
  · rw [word.width_eq]
    exact word.2.1
  · rw [half.width_eq]
    exact half.2.1

/-- Two tokens that share a byte are the same. -/
theorem apart_of_mem_allIn {bytes : Bytes} {first second : Nat × Token}
    (one : first ∈ allIn bytes) (other : second ∈ allIn bytes) :
    second = first ∨ first.1 + first.2.width ≤ second.1 ∨ second.1 + second.2.width ≤ first.1 := by
  obtain ⟨offset, token⟩ := first
  obtain ⟨place, filler⟩ := second
  rw [mem_allIn_iff] at one other
  by_cases same : place = offset
  · -- at one place there is one token: a half in a word that is a token does not count
    subst same
    refine Or.inl (Prod.ext rfl ?_)
    obtain word | half := one <;> obtain word' | half' := other
    · exact Option.some.inj (word'.2.2.symm.trans word.2.2)
    · have own : place / 4 * 4 = place := Nat.div_mul_cancel word.1
      exact absurd word (own ▸ half'.2.2.2 token)
    · have own : place / 4 * 4 = place := Nat.div_mul_cancel word'.1
      exact absurd word' (own ▸ half.2.2.2 filler)
    · exact Option.some.inj (half'.2.2.1.symm.trans half.2.2.1)
  · refine Or.inr ?_
    obtain word | half := one <;> obtain word' | half' := other
    · rw [word.width_eq, word'.width_eq]
      have := word.1
      have := word'.1
      omega
    · rw [word.width_eq, half'.width_eq]
      -- a half inside of the word would stand in a word that is a token
      have outside : place / 4 * 4 ≠ offset := by
        rintro rfl
        exact half'.2.2.2 token word
      have := word.1
      have := half'.1
      omega
    · rw [half.width_eq, word'.width_eq]
      have outside : offset / 4 * 4 ≠ place := by
        rintro rfl
        exact half.2.2.2 filler word'
      have := half.1
      have := word'.1
      omega
    · rw [half.width_eq, half'.width_eq]
      have := half.1
      have := half'.1
      omega

theorem mem_of_firstIn?_eq_some {bytes : Bytes} {offset : Nat} {token : Token}
    (found : token.firstIn? bytes = some offset) : (offset, token) ∈ allIn bytes := by
  obtain ⟨entry, hit, rfl⟩ := Option.map_eq_some_iff.mp found
  have same := List.find?_some hit
  obtain rfl : entry.2 = token := of_decide_eq_true same
  exact List.mem_of_find?_eq_some hit

end Token

namespace Bootstrap

theorem length_fill (loader : Bootstrap) (values : BootstrapValues) (token : Token) :
    (loader.fill values token).length = token.width := by
  cases token <;> rfl

theorem patch_eq (loader : Bootstrap) (values : BootstrapValues) :
    loader.patch values = overwriteAll loader.bytes
      (loader.tokens.map fun entry => (entry.1, loader.fill values entry.2)) :=
  Buffer.toList_overwriteAll _ _

/-- Every token of the loader holds its value at the end. -/
theorem slice_patch_of_mem (loader : Bootstrap) (values : BootstrapValues) {offset : Nat}
    {token : Token} (member : (offset, token) ∈ loader.tokens) :
    slice (loader.patch values) offset token.width = loader.fill values token := by
  have inside := Token.inside_of_mem_allIn member
  have put : (offset, loader.fill values token) ∈
      loader.tokens.map fun entry => (entry.1, loader.fill values entry.2) :=
    List.mem_map.mpr ⟨(offset, token), member, rfl⟩
  rw [patch_eq, ← length_fill loader values token]
  refine slice_overwriteAll_of_mem put ?_ ?_
  · rw [length_fill]
    exact inside
  · intro write made
    obtain ⟨entry, there, rfl⟩ := List.mem_map.mp made
    rw [length_fill, length_fill]
    obtain rfl | apart := Token.apart_of_mem_allIn member there
    · exact Or.inl rfl
    · exact Or.inr apart

theorem wordAt_patch (loader : Bootstrap) (values : BootstrapValues) {offset : Nat}
    {token : Token} {word : UInt32} (stands : Token.IsWordIn loader.bytes offset token)
    (filled : loader.fill values token = wordBytes word) :
    wordAt (loader.patch values) offset = word := by
  have member := (Token.mem_allIn_iff loader.bytes offset token).mpr (Or.inl stands)
  have held := loader.slice_patch_of_mem values member
  rw [stands.width_eq, filled] at held
  exact wordAt_of_slice held

theorem isWordIn_keyOffset (loader : Bootstrap) :
    Token.IsWordIn loader.bytes loader.keyOffset .key := by
  have member := Token.mem_of_firstIn?_eq_some loader.keyOffset_eq
  obtain word | half := (Token.mem_allIn_iff _ _ _).mp member
  · exact word
  · exact absurd half.width_eq (by decide)

end Bootstrap

end CubePatch
