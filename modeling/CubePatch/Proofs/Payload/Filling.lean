import CubePatch.Proofs.Payload.Pointer
import Mathlib.Order.Bounds.Basic

/-!
What filling in the tokens of a loader does.

The tokens of a loader are the places where its binary spells their letters, at the right alignment,
and for halves outside of word tokens. The places share no byte, so the values can be written in any
order, and a value that spells letters itself is not taken for a token. An address that is filled in
as two halves is put together again by the instructions that load it.

## Main result

`fill_exact`: which binaries are loaders, where their tokens are, and what stands in a loader that
was filled in.
-/
namespace CubePatch

/-! ### Halves -/

theorem halfBytes_joinHalf (first second : UInt8) :
    halfBytes (joinHalf first second) = [first, second] := by
  have h₁ := first.toNat_lt
  have h₂ := second.toNat_lt
  simp [halfBytes, ← UInt8.toNat_inj, toNat_joinHalf, UInt16.toNat_shiftRight,
    Nat.shiftRight_eq_div_pow]
  omega

theorem halfBytes_halfAt {bytes : Bytes} {offset : Nat} (inside : offset + 2 ≤ bytes.length) :
    halfBytes (halfAt bytes offset) = slice bytes offset 2 := by
  have enough : 2 ≤ (bytes.drop offset).length := by rw [List.length_drop]; omega
  simp only [halfAt, slice]
  generalize bytes.drop offset = tail at enough ⊢
  rcases tail with _ | ⟨a, _ | ⟨b, rest⟩⟩ <;> simp at enough
  exact halfBytes_joinHalf a b

theorem halfBytes_inj {half other : UInt16} : halfBytes half = halfBytes other ↔ half = other := by
  constructor
  · intro same
    have read (half : UInt16) : halfAt (halfBytes half) 0 = half := joinHalf_of_halfBytes half
    rw [← read half, same, read]
  · rintro rfl
    rfl

theorem toNat_lowerHalf (word : UInt32) : (lowerHalf word).toNat = word.toNat % 2 ^ 16 := by
  simp [lowerHalf]

/-- With its sign, a half counts as the number of the word it becomes. -/
theorem toNat_signed (half : UInt16) :
    half.toInt16.toInt32.toUInt32.toNat =
      if half.toNat < 2 ^ 15 then half.toNat else half.toNat + (2 ^ 32 - 2 ^ 16) := by
  have small := half.toNat_lt
  show (half.toBitVec.signExtend 32).toNat = _
  rw [BitVec.toNat_signExtend, BitVec.toNat_setWidth, BitVec.msb_eq_decide]
  show half.toNat % 2 ^ 32 + (if decide (2 ^ (16 - 1) ≤ half.toNat) = true then _ else _) = _
  by_cases low : half.toNat < 2 ^ 15
  · rw [if_pos low, if_neg (by simpa using low)]
    omega
  · rw [if_neg low, if_pos (by simpa using low)]
    omega

theorem toNat_adjustedUpperHalf (address : UInt32) :
    (adjustedUpperHalf address).toNat = (address.toNat + 2 ^ 15) / 2 ^ 16 % 2 ^ 16 := by
  have small := address.toNat_lt
  have upper := toNat_upperHalf address
  -- the bit that is tested is the sign of the lower half
  have sign : address &&& 0x8000 ≠ 0 ↔ address.toNat / 2 ^ 15 % 2 = 1 := by
    rw [← isSet_iff address (show 16 ≤ 31 by decide), isSet, bne_iff_ne]
    rfl
  simp only [adjustedUpperHalf, sign]
  split
  · rw [UInt16.toNat_add, upper]
    simp only [UInt16.reduceToNat]
    omega
  · rw [upper]
    omega

/-- A pair of loads puts the halves of an address together to the address. -/
theorem joinSigned_halves (address : UInt32) :
    joinSigned (adjustedUpperHalf address) (lowerHalf address) = address := by
  have small := address.toNat_lt
  have upper := toNat_adjustedUpperHalf address
  have lower := toNat_lowerHalf address
  apply UInt32.toNat_inj.mp
  have shifted : ((adjustedUpperHalf address).toUInt32 <<< 16).toNat =
      (address.toNat + 2 ^ 15) / 2 ^ 16 % 2 ^ 16 * 2 ^ 16 := by
    rw [UInt32.toNat_shiftLeft, UInt16.toNat_toUInt32, upper, Nat.shiftLeft_eq]
    simp only [UInt32.reduceToNat, Nat.reduceMod]
    omega
  rw [joinSigned, UInt32.toNat_add, shifted, toNat_signed, lower]
  -- the carry of the upper half makes up for a lower half that counts as negative
  split <;> omega

namespace Token

/-! ### Letters -/

/-- The letters of a token as they stand in a binary. -/
def spelling (token : Token) : Bytes :=
  token.letters.toList.map fun letter => UInt8.ofNat letter.toNat

theorem length_spelling (token : Token) : token.spelling.length = token.width := by
  cases token <;> rfl

/-- If every token of a width is in a table, and each one there is listed under its letters, then it is
found by its letters and by nothing else. -/
private theorem lookup_iff_of_spelled {Key : Type} [BEq Key] [LawfulBEq Key]
    {table : List (Key × Token)} {width : Nat} {spell : Key → Bytes}
    (injective : ∀ {key other}, spell key = spell other → key = other)
    (spelled : ∀ entry ∈ table, entry.2.width = width ∧ spell entry.1 = entry.2.spelling)
    (complete : ∀ token : Token, token.width = width →
      ∃ entry ∈ table, table.lookup entry.1 = some token)
    (key : Key) (token : Token) :
    table.lookup key = some token ↔ token.width = width ∧ spell key = token.spelling := by
  have sound {key : Key} (found : table.lookup key = some token) :
      token.width = width ∧ spell key = token.spelling := by
    obtain ⟨before, behind, split, -⟩ := List.lookup_eq_some_iff.mp found
    exact spelled (key, token) (by rw [split]; simp)
  refine ⟨sound, ?_⟩
  rintro ⟨wide, same⟩
  -- the token is found under some key, which has the same letters
  obtain ⟨entry, -, found⟩ := complete token wide
  rwa [injective (same.trans (sound found).2.symm)]

theorem lookup_wordTokens_iff (word : UInt32) (token : Token) :
    wordTokens.lookup word = some token ↔ token.width = 4 ∧ wordBytes word = token.spelling := by
  refine lookup_iff_of_spelled wordBytes_inj.mp (by decide +kernel) ?_ word token
  intro token wide
  cases token <;> first | decide +kernel | cases wide

theorem lookup_halfTokens_iff (half : UInt16) (token : Token) :
    halfTokens.lookup half = some token ↔ token.width = 2 ∧ halfBytes half = token.spelling := by
  refine lookup_iff_of_spelled halfBytes_inj.mp (by decide +kernel) ?_ half token
  intro token wide
  cases token <;> first | decide +kernel | cases wide

/-! ### Where tokens stand -/

/-- The letters of a token stand at a multiple of their number. -/
def IsSpelledAt (bytes : Bytes) (token : Token) (offset : Nat) : Prop :=
  token.width ∣ offset ∧ slice bytes offset token.width = token.spelling

/-- A token stands where its letters do. Those of a half do not count within a word that is a token
itself. -/
def StandsAt (bytes : Bytes) (token : Token) (offset : Nat) : Prop :=
  IsSpelledAt bytes token offset ∧
    (token.width = 2 → ∀ other place, other.width = 4 → IsSpelledAt bytes other place →
      ¬ (place ≤ offset ∧ offset < place + 4))

theorem width_cases (token : Token) : token.width = 4 ∨ token.width = 2 := by
  cases token <;> decide

theorem IsSpelledAt.inside {bytes : Bytes} {token : Token} {offset : Nat}
    (spelled : IsSpelledAt bytes token offset) : offset + token.width ≤ bytes.length := by
  have length := congrArg List.length spelled.2
  have wide := token.width_cases
  rw [length_spelling, slice, List.length_take, List.length_drop] at length
  omega

theorem isWordIn_iff (bytes : Bytes) (offset : Nat) (token : Token) :
    IsWordIn bytes offset token ↔ token.width = 4 ∧ IsSpelledAt bytes token offset := by
  rw [IsWordIn, lookup_wordTokens_iff]
  constructor
  · rintro ⟨aligned, inside, wide, spelled⟩
    rw [wordBytes_wordAt inside] at spelled
    exact ⟨wide, wide ▸ aligned, wide ▸ spelled⟩
  · rintro ⟨wide, spelled⟩
    have inside := spelled.inside
    obtain ⟨aligned, letters⟩ := spelled
    rw [wide] at aligned inside letters
    exact ⟨aligned, inside, wide, (wordBytes_wordAt inside).trans letters⟩

theorem isHalfIn_iff (bytes : Bytes) (offset : Nat) (token : Token) :
    IsHalfIn bytes offset token ↔ token.width = 2 ∧ StandsAt bytes token offset := by
  rw [IsHalfIn, lookup_halfTokens_iff]
  constructor
  · rintro ⟨aligned, inside, ⟨wide, spelled⟩, bare⟩
    rw [halfBytes_halfAt inside] at spelled
    refine ⟨wide, ⟨wide ▸ aligned, wide ▸ spelled⟩, fun _ other place four letters within => ?_⟩
    -- a word that holds the half begins at the last multiple of four
    have aligned_word := letters.1
    rw [four] at aligned_word
    have start : offset / 4 * 4 = place := by omega
    exact bare other ((isWordIn_iff _ _ _).mpr ⟨four, start ▸ letters⟩)
  · rintro ⟨wide, spelled, bare⟩
    have inside := spelled.inside
    obtain ⟨aligned, letters⟩ := spelled
    rw [wide] at aligned inside letters
    refine ⟨aligned, inside, ⟨wide, (halfBytes_halfAt inside).trans letters⟩, fun other word => ?_⟩
    obtain ⟨four, there⟩ := (isWordIn_iff _ _ _).mp word
    exact bare wide other _ four there (by omega)

/-- The tokens that are found are those that stand in the binary. -/
theorem mem_allIn_iff_standsAt (bytes : Bytes) (offset : Nat) (token : Token) :
    (offset, token) ∈ allIn bytes ↔ StandsAt bytes token offset := by
  rw [mem_allIn_iff, isWordIn_iff, isHalfIn_iff]
  obtain wide | narrow := token.width_cases
  · simp [wide, StandsAt]
  · simp [narrow]

theorem mem_allIn_iff_isSpelledAt (bytes : Bytes) (offset : Nat) {token : Token}
    (wide : token.width = 4) : (offset, token) ∈ allIn bytes ↔ IsSpelledAt bytes token offset := by
  rw [mem_allIn_iff_standsAt, StandsAt]
  simp [wide]

/-! ### The order in which tokens are found -/

private theorem pairwise_zipIdx {α : Type} (values : List α) :
    values.zipIdx.Pairwise (·.2 < ·.2) := by
  rw [← List.pairwise_map, List.zipIdx_map_snd]
  exact List.pairwise_lt_range' 1

theorem pairwise_wordsIn (bytes : Bytes) : (wordsIn bytes).Pairwise (·.1 < ·.1) := by
  rw [wordsIn, List.pairwise_filterMap]
  refine (pairwise_zipIdx (words bytes)).imp fun before first one second other => ?_
  obtain ⟨_, -, rfl⟩ := Option.map_eq_some_iff.mp one
  obtain ⟨_, -, rfl⟩ := Option.map_eq_some_iff.mp other
  show _ * 4 < _ * 4
  omega

private theorem pairwise_ofHalves (offset : Nat) (word : UInt32) :
    (ofHalves offset word).Pairwise (·.1 < ·.1) := by
  unfold ofHalves ofHalf
  cases wordTokens.lookup word <;> cases halfTokens.lookup (upperHalf word) <;>
    cases halfTokens.lookup (lowerHalf word) <;> simp

/-- What stands for the halves of a word is found within the word. -/
private theorem bounds_of_mem_ofHalves {offset : Nat} {word : UInt32} {entry : Nat × Token}
    (member : entry ∈ ofHalves offset word) : offset ≤ entry.1 ∧ entry.1 < offset + 4 := by
  obtain ⟨place, token⟩ := entry
  obtain ⟨-, ⟨rfl, -⟩ | ⟨rfl, -⟩⟩ := (mem_ofHalves_iff _ _ _ _).mp member
  · exact ⟨Nat.le_refl _, by omega⟩
  · exact ⟨by omega, by omega⟩

theorem pairwise_halvesIn (bytes : Bytes) : (halvesIn bytes).Pairwise (·.1 < ·.1) := by
  rw [halvesIn, List.pairwise_append]
  refine ⟨?_, ?_, ?_⟩
  · -- the halves of a word are in order, and those of the next word are behind its end
    rw [List.pairwise_flatMap]
    refine ⟨fun entry _ => pairwise_ofHalves _ _, ?_⟩
    refine (pairwise_zipIdx (words bytes)).imp fun before first one second other => ?_
    have lower := bounds_of_mem_ofHalves one
    have upper := bounds_of_mem_ofHalves other
    omega
  · split
    · unfold ofHalf
      cases halfTokens.lookup _ <;> simp
    · exact List.Pairwise.nil
  · -- the half at the end stands behind all whole words
    rintro first one ⟨place, token⟩ other
    obtain ⟨⟨word, index⟩, there, half⟩ := List.mem_flatMap.mp one
    have inside : index * 4 + 4 ≤ bytes.length := by
      rw [List.mk_mem_zipIdx_iff_getElem?, getElem?_words] at there
      split at there
      next inside => exact inside
      · cases there
    have bounds := bounds_of_mem_ofHalves half
    obtain ⟨rfl, -, -⟩ := (mem_last_iff bytes _ place token).mp other
    show first.1 < bytes.length / 4 * 4
    omega

/-- Tokens of one width are found in the order of their places. -/
theorem pairwise_allIn (bytes : Bytes) :
    (allIn bytes).Pairwise fun first second =>
      first.2.width = second.2.width → first.1 < second.1 := by
  have weaken {entries : List (Nat × Token)} (ordered : entries.Pairwise (·.1 < ·.1)) :
      entries.Pairwise fun first second =>
        first.2.width = second.2.width → first.1 < second.1 := by
    refine ordered.imp ?_
    intro first second before _
    exact before
  rw [allIn, List.pairwise_append]
  refine ⟨weaken (pairwise_wordsIn bytes), weaken (pairwise_halvesIn bytes), ?_⟩
  -- a word token and a half token differ in their widths
  rintro ⟨offset, token⟩ word ⟨place, other⟩ half same
  have wide := ((mem_wordsIn_iff bytes offset token).mp word).width_eq
  have narrow := ((mem_halvesIn_iff bytes place other).mp half).width_eq
  rw [wide, narrow] at same
  cases same

theorem nodup_allIn (bytes : Bytes) : (allIn bytes).Nodup := by
  refine (pairwise_allIn bytes).imp fun before same => ?_
  subst same
  exact Nat.lt_irrefl _ (before rfl)

/-- The first place of a token is the least. -/
theorem firstIn?_eq_some_iff (token : Token) (bytes : Bytes) (offset : Nat) :
    token.firstIn? bytes = some offset ↔
      IsLeast {place | (place, token) ∈ allIn bytes} offset := by
  have least {place : Nat} (found : token.firstIn? bytes = some place) :
      IsLeast {place | (place, token) ∈ allIn bytes} place := by
    refine ⟨mem_of_firstIn?_eq_some found, fun other there => ?_⟩
    obtain ⟨entry, hit, rfl⟩ := Option.map_eq_some_iff.mp found
    obtain ⟨same, before, behind, split, missed⟩ := List.find?_eq_some_iff_append.mp hit
    have ordered := pairwise_allIn bytes
    rw [Set.mem_ofPred_eq, split, List.mem_append, List.mem_cons] at there
    rw [split, List.pairwise_append, List.pairwise_cons] at ordered
    -- what is listed in front of the hit is another token, and what is behind it stands further on
    obtain earlier | rfl | later := there
    · have skipped := missed _ earlier
      simp at skipped
    · exact Nat.le_refl _
    · refine Nat.le_of_lt (ordered.2.1.1 _ later ?_)
      rw [of_decide_eq_true same]
  refine ⟨least, fun lowest => ?_⟩
  cases found : token.firstIn? bytes with
  | none =>
    have missed := List.find?_eq_none.mp (Option.map_eq_none_iff.mp found) _ lowest.1
    simp at missed
  | some place => rw [(least found).unique lowest]

theorem firstIn?_eq_none_iff (token : Token) (bytes : Bytes) :
    token.firstIn? bytes = none ↔ ¬ ∃ place, (place, token) ∈ allIn bytes := by
  rw [firstIn?, Option.map_eq_none_iff, List.find?_eq_none]
  constructor
  · rintro missed ⟨place, there⟩
    exact missed _ there (decide_eq_true rfl)
  · rintro absent ⟨place, other⟩ there same
    exact absent ⟨place, of_decide_eq_true same ▸ there⟩

end Token

namespace Bootstrap

/-! ### Which binaries are loaders -/

/-- A binary is a loader if both tokens it cannot do without are found in it. -/
theorem ofBytes_cases (bytes : Bytes) :
    (ofBytes bytes = .error (.missingToken .heap) ∧ Token.heap.firstIn? bytes = none) ∨
      (ofBytes bytes = .error (.missingToken .key) ∧ Token.heap.firstIn? bytes ≠ none ∧
        Token.key.firstIn? bytes = none) ∨
      ∃ loader, ofBytes bytes = .ok loader ∧ loader.bytes = bytes := by
  unfold ofBytes
  split
  next missing => exact Or.inl ⟨rfl, missing⟩
  next heapOffset found =>
    split
    next missing => exact Or.inr (Or.inl ⟨rfl, found ▸ Option.some_ne_none _, missing⟩)
    next keyOffset here => exact Or.inr (Or.inr ⟨_, rfl, rfl⟩)

theorem bytes_of_ofBytes {bytes : Bytes} {loader : Bootstrap}
    (opened : ofBytes bytes = .ok loader) : loader.bytes = bytes := by
  obtain ⟨failed, -⟩ | ⟨failed, -⟩ | ⟨other, found, same⟩ := ofBytes_cases bytes
  · rw [failed] at opened
    cases opened
  · rw [failed] at opened
    cases opened
  · rw [found] at opened
    cases opened
    exact same

theorem exists_ofBytes_iff (bytes : Bytes) :
    (∃ loader, ofBytes bytes = .ok loader) ↔
      (∃ place, Token.IsSpelledAt bytes .heap place) ∧
        ∃ place, Token.IsSpelledAt bytes .key place := by
  have found (token : Token) (wide : token.width = 4) :
      token.firstIn? bytes ≠ none ↔ ∃ place, Token.IsSpelledAt bytes token place := by
    rw [ne_eq, Token.firstIn?_eq_none_iff, not_not]
    simp only [Token.mem_allIn_iff_isSpelledAt bytes _ wide]
  rw [← found .heap rfl, ← found .key rfl]
  obtain ⟨failed, missing⟩ | ⟨failed, -, missing⟩ | ⟨loader, opened, rfl⟩ := ofBytes_cases bytes
  · simp [failed, missing]
  · simp [failed, missing]
  · simp [opened, loader.heapOffset_eq, loader.keyOffset_eq]

theorem isLeast_firstIn? {bytes : Bytes} {token : Token} (wide : token.width = 4) {offset : Nat}
    (found : token.firstIn? bytes = some offset) :
    IsLeast {place | Token.IsSpelledAt bytes token place} offset := by
  have least := (Token.firstIn?_eq_some_iff token bytes offset).mp found
  simpa only [Token.mem_allIn_iff_isSpelledAt bytes _ wide] using least

/-! ### What stands in a loader that was filled in -/

/-- The words that take the place of the word tokens. -/
def wordValues (loader : Bootstrap) (values : BootstrapValues) : List (Token × UInt32) :=
  [(.heap, values.allocation), (.loaderSize, UInt32.ofNat loader.bytes.length),
    (.handlerSize, values.handlerLength), (.codeSize, values.codesLength),
    (.hook, values.hookAddress), (.crypt, if values.encrypted then 1 else 0), (.key, values.key)]

/-- The addresses that are filled in as halves, behind the tokens of their upper and lower halves. -/
def addressValues (loader : Bootstrap) (values : BootstrapValues) :
    List (Token × Token × UInt32) :=
  [(.heapUpper, .heapLower, values.initAddress + UInt32.ofNat loader.heapOffset),
    (.keyUpper, .keyLower, values.initAddress + UInt32.ofNat loader.keyOffset),
    (.entryUpper, .entryLower, values.entryPoint)]

/-- A loader in which the tokens hold their values and all else is as it was. -/
structure IsFilled (loader : Bootstrap) (values : BootstrapValues) (filled : Bytes) : Prop where
  length_eq : filled.length = loader.bytes.length
  word : ∀ entry ∈ loader.wordValues values, ∀ offset,
    Token.IsSpelledAt loader.bytes entry.1 offset → wordAt filled offset = entry.2
  upper : ∀ entry ∈ loader.addressValues values, ∀ offset,
    Token.StandsAt loader.bytes entry.1 offset →
      halfAt filled offset = adjustedUpperHalf entry.2.2
  lower : ∀ entry ∈ loader.addressValues values, ∀ offset,
    Token.StandsAt loader.bytes entry.2.1 offset → halfAt filled offset = lowerHalf entry.2.2
  /-- Any two halves of an address are put together to the address. -/
  joined : ∀ entry ∈ loader.addressValues values, ∀ first second,
    Token.StandsAt loader.bytes entry.1 first → Token.StandsAt loader.bytes entry.2.1 second →
      joinSigned (halfAt filled first) (halfAt filled second) = entry.2.2
  spared : ∀ position, (∀ token offset, Token.StandsAt loader.bytes token offset →
      ¬ (offset ≤ position ∧ position < offset + token.width)) →
    filled[position]? = loader.bytes[position]?

theorem mem_tokens_iff (loader : Bootstrap) (offset : Nat) (token : Token) :
    (offset, token) ∈ loader.tokens ↔ Token.StandsAt loader.bytes token offset :=
  Token.mem_allIn_iff_standsAt loader.bytes offset token

theorem halfAt_patch (loader : Bootstrap) (values : BootstrapValues) {offset : Nat}
    {token : Token} {half : UInt16} (stands : Token.StandsAt loader.bytes token offset)
    (filled : loader.fill values token = halfBytes half) :
    halfAt (loader.patch values) offset = half := by
  have held := loader.slice_patch_of_mem values ((loader.mem_tokens_iff offset token).mpr stands)
  have narrow := congrArg List.length filled
  rw [length_fill, length_halfBytes] at narrow
  rw [narrow, filled] at held
  exact halfAt_of_slice held

theorem isFilled_patch (loader : Bootstrap) (values : BootstrapValues) :
    loader.IsFilled values (loader.patch values) := by
  have words : ∀ entry ∈ loader.wordValues values,
      entry.1.width = 4 ∧ loader.fill values entry.1 = wordBytes entry.2 := by
    simp only [wordValues, List.forall_mem_cons]
    exact ⟨⟨rfl, rfl⟩, ⟨rfl, rfl⟩, ⟨rfl, rfl⟩, ⟨rfl, rfl⟩, ⟨rfl, rfl⟩, ⟨rfl, rfl⟩, ⟨rfl, rfl⟩,
      List.forall_mem_nil _⟩
  have halves : ∀ entry ∈ loader.addressValues values,
      loader.fill values entry.1 = halfBytes (adjustedUpperHalf entry.2.2) ∧
        loader.fill values entry.2.1 = halfBytes (lowerHalf entry.2.2) := by
    simp only [addressValues, List.forall_mem_cons]
    exact ⟨⟨rfl, rfl⟩, ⟨rfl, rfl⟩, ⟨rfl, rfl⟩, List.forall_mem_nil _⟩
  have upper : ∀ entry ∈ loader.addressValues values, ∀ offset,
      Token.StandsAt loader.bytes entry.1 offset →
        halfAt (loader.patch values) offset = adjustedUpperHalf entry.2.2 :=
    fun entry member offset stands => loader.halfAt_patch values stands (halves entry member).1
  have lower : ∀ entry ∈ loader.addressValues values, ∀ offset,
      Token.StandsAt loader.bytes entry.2.1 offset →
        halfAt (loader.patch values) offset = lowerHalf entry.2.2 :=
    fun entry member offset stands => loader.halfAt_patch values stands (halves entry member).2
  refine ⟨loader.length_patch values, ?_, upper, lower, ?_, ?_⟩
  · intro entry member offset spelled
    obtain ⟨wide, filled⟩ := words entry member
    exact loader.wordAt_patch values ((Token.isWordIn_iff _ _ _).mpr ⟨wide, spelled⟩) filled
  · intro entry member first second one other
    rw [upper entry member first one, lower entry member second other, joinSigned_halves]
  · -- a byte that is in no token is in no write
    intro position clear
    rw [patch_eq]
    apply getElem?_overwriteAll_of_missed
    intro write made
    obtain ⟨⟨offset, token⟩, there, rfl⟩ := List.mem_map.mp made
    rw [length_fill]
    exact clear token offset ((loader.mem_tokens_iff offset token).mp there)

/-- The tokens can be filled in in any order. -/
theorem overwriteAll_tokens_perm (loader : Bootstrap) (values : BootstrapValues)
    {order : List (Nat × Token)} (same : order.Perm loader.tokens) :
    overwriteAll loader.bytes (order.map fun entry => (entry.1, loader.fill values entry.2)) =
      loader.patch values := by
  rw [patch_eq]
  refine overwriteAll_perm (same.map _) ?_ ?_
  · intro write made
    obtain ⟨⟨offset, token⟩, there, rfl⟩ := List.mem_map.mp made
    rw [length_fill]
    exact Token.inside_of_mem_allIn there
  · -- no write hides another, for different tokens share no byte
    intro write made other found
    obtain ⟨first, one, rfl⟩ := List.mem_map.mp made
    obtain ⟨second, two, rfl⟩ := List.mem_map.mp found
    rw [length_fill, length_fill]
    obtain rfl | apart := Token.apart_of_mem_allIn one two
    · exact Or.inl rfl
    · exact Or.inr apart

/-- A binary is a loader exactly if the two tokens it cannot do without are spelled in it. Its tokens
are found where they stand, no two of them share a byte, and filling them in puts each value at its
tokens and changes nothing else, in whatever order it is done. -/
theorem fill_exact (bytes : Bytes) :
    ((∃ loader, ofBytes bytes = .ok loader) ↔
      (∃ place, Token.IsSpelledAt bytes .heap place) ∧
        ∃ place, Token.IsSpelledAt bytes .key place) ∧
    ∀ loader, ofBytes bytes = .ok loader →
      loader.bytes = bytes ∧
      IsLeast {place | Token.IsSpelledAt bytes .heap place} loader.heapOffset ∧
      IsLeast {place | Token.IsSpelledAt bytes .key place} loader.keyOffset ∧
      (∀ offset token, (offset, token) ∈ loader.tokens ↔ Token.StandsAt bytes token offset) ∧
      (loader.tokens.Pairwise fun first second =>
        first.1 + first.2.width ≤ second.1 ∨ second.1 + second.2.width ≤ first.1) ∧
      ∀ values, loader.IsFilled values (loader.patch values) ∧
        ∀ order : List (Nat × Token), order.Perm loader.tokens →
          overwriteAll bytes (order.map fun entry => (entry.1, loader.fill values entry.2)) =
            loader.patch values := by
  refine ⟨exists_ofBytes_iff bytes, fun loader opened => ?_⟩
  obtain rfl := bytes_of_ofBytes opened
  refine ⟨rfl, isLeast_firstIn? rfl loader.heapOffset_eq, isLeast_firstIn? rfl loader.keyOffset_eq,
    loader.mem_tokens_iff, ?_, ?_⟩
  · refine (Token.nodup_allIn loader.bytes).imp_of_mem fun one two differs => ?_
    exact (Token.apart_of_mem_allIn one two).resolve_left (Ne.symm differs)
  · exact fun values => ⟨loader.isFilled_patch values,
      fun order same => loader.overwriteAll_tokens_perm values same⟩

end Bootstrap

end CubePatch
