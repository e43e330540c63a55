import CubePatch.Code.Source
import CubePatch.Proofs.Hexadecimal
import CubePatch.Proofs.Search
import CubePatch.Proofs.Text.Lines
import Mathlib.Data.List.Forall2
import Mathlib.Data.List.ReduceOption
import Mathlib.Data.List.TakeWhile
import Mathlib.Logic.Relation

/-!
The codes of a text, by where they stand in its lines.

A code is shown by two words of eight digits with a blank between them. Which of the codes in a line
counts depends on the dialect and the selection, and is said here by positions: the first place that
is not marked, the first place of all, or what the first star marks. The scanners walk a line once
and find exactly these.

## Main result

`text_codes_exact`: the codes of a text are those its lines carry, whatever blank lines are in it.
-/
namespace CubePatch

/-! ### Words and codes as they are shown -/

/-- A word is spelled by its eight digits in any letter case. -/
def IsSpelledBy (word : UInt32) (digits : List Char) : Prop :=
  digits.map Char.toLower = hexSpelling 8 word.toNat

/-- A code line is shown by its two words with a space, a tab or a form feed between them. -/
def Line.IsShownBy (code : Line) (shown : List Char) : Prop :=
  ∃ head delimiter operand, shown = head ++ delimiter :: operand ∧ IsSpelledBy code.head head ∧
    delimiter ∈ [' ', '\t', '\x0c'] ∧ IsSpelledBy code.operand operand

/-- A code stands at a place of a row, whatever is around it. -/
def HasCodeAt (row : List Char) (place : Nat) (code : Line) : Prop :=
  ∃ before shown behind, row = before ++ shown ++ behind ∧ before.length = place ∧
    code.IsShownBy shown

theorem IsSpelledBy.length {word : UInt32} {digits : List Char} (spelled : IsSpelledBy word digits) :
    digits.length = 8 := by
  simpa using congrArg List.length spelled

/-- Eight digits are read as the word they spell. -/
theorem hexWord?_eq_some_iff (digits : List Char) (word : UInt32) :
    hexWord? digits = some word ↔ IsSpelledBy word digits := by
  have bound : word.toNat < 16 ^ 8 := word.toNat_lt
  have values := exists_hexValues_iff digits
  constructor
  · intro read
    unfold hexWord? at read
    split at read
    next eight =>
      obtain ⟨digitValues, valued, rfl⟩ := Option.map_eq_some_iff.mp read
      obtain ⟨small, spelled⟩ := (values _).mp ⟨digitValues, valued, rfl⟩
      rw [eight] at small spelled
      rw [IsSpelledBy, spelled, UInt32.toNat_ofNat_of_lt' small]
    · cases read
  · intro spelled
    have eight := spelled.length
    rw [eight] at values
    obtain ⟨digitValues, valued, same⟩ := (values word.toNat).mpr ⟨bound, spelled⟩
    rw [hexWord?, if_pos eight, valued, Option.map_some, same, UInt32.ofNat_toNat]

theorem isWordDelimiter_iff (c : Char) : isWordDelimiter c = true ↔ c ∈ [' ', '\t', '\x0c'] := by
  simp [isWordDelimiter, or_assoc]

/-- A text starts with the code that it shows first. -/
theorem codeAt?_eq_some_iff (text : List Char) (code : Line) :
    codeAt? text = some code ↔ ∃ shown behind, text = shown ++ behind ∧ code.IsShownBy shown := by
  constructor
  · intro read
    unfold codeAt? at read
    split at read
    next delimiter rest found =>
      split at read
      next blank =>
        split at read
        next head operand first second =>
          cases read
          -- the text is the two words that were read, the blank between them and what is behind
          have whole : text = text.take 8 ++ delimiter :: rest.take 8 ++ rest.drop 8 := by
            rw [List.append_assoc, List.cons_append, List.take_append_drop, ← found,
              List.take_append_drop]
          exact ⟨_, _, whole, _, delimiter, _, rfl, (hexWord?_eq_some_iff _ _).mp first,
            (isWordDelimiter_iff _).mp blank, (hexWord?_eq_some_iff _ _).mp second⟩
        · cases read
      · cases read
    · cases read
  · rintro ⟨_, behind, rfl, head, delimiter, operand, rfl, first, blank, second⟩
    have rest : (head ++ delimiter :: operand ++ behind).drop 8 =
        delimiter :: (operand ++ behind) := by
      rw [List.append_assoc, List.drop_left' first.length, List.cons_append]
    have front : (head ++ delimiter :: operand ++ behind).take 8 = head := by
      rw [List.append_assoc, List.take_left' first.length]
    unfold codeAt?
    rw [rest, front]
    dsimp only
    rw [if_pos ((isWordDelimiter_iff _).mpr blank), List.take_left' second.length,
      (hexWord?_eq_some_iff _ _).mpr first, (hexWord?_eq_some_iff _ _).mpr second]

/-- A code stands at a place exactly if the rest of the row starts with it. -/
theorem hasCodeAt_iff (row : List Char) (place : Nat) (code : Line) :
    HasCodeAt row place code ↔ codeAt? (row.drop place) = some code := by
  rw [codeAt?_eq_some_iff]
  constructor
  · rintro ⟨before, shown, behind, rfl, rfl, shows⟩
    exact ⟨shown, behind, by simp, shows⟩
  · rintro ⟨shown, behind, split, shows⟩
    obtain ⟨head, delimiter, operand, rfl, -⟩ := id shows
    -- something is left from the place on, so the place is inside the row
    have inside : place ≤ row.length := by
      have lengths := congrArg List.length split
      simp only [List.length_drop, List.length_append, List.length_cons] at lengths
      omega
    refine ⟨row.take place, _, behind, ?_, List.length_take_of_le inside, shows⟩
    rw [List.append_assoc, ← split, List.take_append_drop]

/-- There is no code in a row that is shorter than two words and a blank. -/
theorem HasCodeAt.add_le_length {row : List Char} {place : Nat} {code : Line}
    (standing : HasCodeAt row place code) : place + 17 ≤ row.length := by
  obtain ⟨before, _, behind, rfl, rfl, head, delimiter, operand, rfl, first, -, second⟩ := standing
  have head_length := first.length
  have operand_length := second.length
  simp only [List.length_append, List.length_cons]
  omega

/-- Every character that spells a word is a digit. -/
theorem IsSpelledBy.exists_digit {word : UInt32} {digits : List Char}
    (spelled : IsSpelledBy word digits) {c : Char} (member : c ∈ digits) :
    ∃ value, hexDigit? c = some value := by
  have lower := List.mem_map_of_mem (f := Char.toLower) member
  rw [spelled] at lower
  obtain ⟨value, small, same⟩ := mem_hexSpelling lower
  exact ⟨value, (hexDigit?_eq_some_iff c value).mpr ⟨small, same⟩⟩

/-- Digits and one blank are all that shows a code. -/
theorem Line.IsShownBy.of_mem {code : Line} {shown : List Char} (shows : code.IsShownBy shown)
    {c : Char} (member : c ∈ shown) :
    (∃ value, hexDigit? c = some value) ∨ c ∈ [' ', '\t', '\x0c'] := by
  obtain ⟨head, delimiter, operand, rfl, first, blank, second⟩ := shows
  simp only [List.mem_append, List.mem_cons] at member
  obtain inside | rfl | inside := member
  · exact Or.inl (first.exists_digit inside)
  · exact Or.inr blank
  · exact Or.inl (second.exists_digit inside)

theorem Line.IsShownBy.exists_cons {code : Line} {shown : List Char} (shows : code.IsShownBy shown) :
    ∃ c rest value, shown = c :: rest ∧ hexDigit? c = some value := by
  obtain ⟨head, delimiter, operand, rfl, first, -⟩ := shows
  cases head with
  | nil => cases first.length
  | cons c rest =>
    obtain ⟨value, digit⟩ := first.exists_digit List.mem_cons_self
    exact ⟨c, _, value, rfl, digit⟩

theorem isBlankChar_eq_false_of_hexDigit? {c : Char} {value : Nat}
    (digit : hexDigit? c = some value) : isBlankChar c = false := by
  have bounds := toNat_of_hexDigit? digit
  simp only [isBlankChar, Bool.or_eq_false_iff, Bool.and_eq_false_iff, decide_eq_false_iff_not,
    List.mem_cons, List.not_mem_nil, or_false]
  omega

/-! ### Which code of a row counts -/

/-- The code at the first place of a row where one stands and counts. -/
def IsFirstCode (counts : Nat → Prop) (row : List Char) (code : Line) : Prop :=
  ∃ place, IsLeast {place | counts place ∧ ∃ any, HasCodeAt row place any} place ∧
    HasCodeAt row place code

/-- The character in front of a place of a row, in front of which `previous` stands. -/
def charBefore? (previous : Option Char) (row : List Char) : Nat → Option Char
  | 0 => previous
  | place + 1 => row[place]?

/-- A star marks a place behind it from which only white space of the ASCII characters divides it. -/
structure Marks (row : List Char) (star place : Nat) : Prop where
  isStar : row[star]? = some '*'
  order : star < place
  gap : ∀ between c, star < between → between < place → row[between]? = some c →
    c.toNat < 128 ∧ isBlankChar c = true

/-- The code that is marked by the first star that marks one. -/
def IsMarkedCode (row : List Char) (code : Line) : Prop :=
  ∃ star, IsLeast {star | ∃ place any, Marks row star place ∧ HasCodeAt row place any} star ∧
    ∃ place, Marks row star place ∧ HasCodeAt row place code

/-- The code a row carries in a dialect. -/
def Carries (row : List Char) (code : Line) : TextDialect → TextSelection → Prop
  | .dolphin, _ => (∀ mark ∈ ['$', '*', '['], row.head? ≠ some mark) ∧
      IsFirstCode (fun place => ∀ mark ∈ ['$', '*'], charBefore? none row place ≠ some mark)
        row code
  | .ocarinaManager, .all => IsFirstCode (fun _ => True) row code
  | .ocarinaManager, .active => IsMarkedCode row code

/-! ### Scanning a row -/

/-- No code stands behind the end of a row. -/
theorem lt_length_of_codeAt? {row : List Char} {place : Nat} {code : Line}
    (read : codeAt? (row.drop place) = some code) : place < row.length := by
  have room := ((hasCodeAt_iff row place code).mpr read).add_le_length
  omega

theorem firstCode?_eq (row : List Char) :
    firstCode? row = (List.range row.length).findSome? fun place => codeAt? (row.drop place) := by
  induction row with
  | nil => rfl
  | cons c rest ih =>
    rw [firstCode?, List.length_cons, findSome?_range_succ, List.drop_zero]
    simp only [List.drop_succ_cons, ← ih]
    cases codeAt? (c :: rest) <;> rfl

/-- What the scanner for marked codes finds at a star. -/
def codeOfStar? (row : List Char) (star : Nat) : Option Line :=
  if row[star]? = some '*' then codeAt? ((row.drop (star + 1)).dropWhile isMarkSpace) else none

theorem firstActiveCode?_eq (row : List Char) :
    firstActiveCode? row = (List.range row.length).findSome? (codeOfStar? row) := by
  induction row with
  | nil => rfl
  | cons c rest ih =>
    have later : (fun star => codeOfStar? (c :: rest) (star + 1)) = codeOfStar? rest := by
      funext star
      simp [codeOfStar?]
    rw [firstActiveCode?, List.length_cons, findSome?_range_succ, later, ← ih, codeOfStar?]
    by_cases star : c = '*'
    · simp only [star, if_true, List.getElem?_cons_zero, List.drop_succ_cons, List.drop_zero,
        Nat.zero_add]
      cases codeAt? (rest.dropWhile isMarkSpace) <;> rfl
    · simp [star]

/-- What the scanner for codes that are not marked finds at a place. -/
def unmarkedAt? (previous : Option Char) (row : List Char) (place : Nat) : Option Line :=
  if charBefore? previous row place = some '$' ∨ charBefore? previous row place = some '*' then none
  else codeAt? (row.drop place)

theorem firstUnmarkedCode?_eq (previous : Option Char) (row : List Char) :
    firstUnmarkedCode? previous row =
      (List.range row.length).findSome? (unmarkedAt? previous row) := by
  -- the scanner hands the character it passes on to the rest of the row
  induction row generalizing previous with
  | nil => rfl
  | cons c rest ih =>
    have later : (fun place => unmarkedAt? previous (c :: rest) (place + 1)) =
        unmarkedAt? (some c) rest := by
      funext place
      cases place <;> rfl
    rw [firstUnmarkedCode?, List.length_cons, findSome?_range_succ, later, ← ih]
    by_cases marked : previous = some '$' ∨ previous = some '*'
    · have here : unmarkedAt? previous (c :: rest) 0 = none := if_pos marked
      rw [if_pos marked, here, Option.none_or]
    · have here : unmarkedAt? previous (c :: rest) 0 = codeAt? (c :: rest) := if_neg marked
      rw [if_neg marked, here]
      cases codeAt? (c :: rest) <;> rfl

/-! ### What the scanners find -/

theorem firstCode?_eq_some_iff (row : List Char) (code : Line) :
    firstCode? row = some code ↔ IsFirstCode (fun _ => True) row code := by
  rw [firstCode?_eq, findSome?_range_eq_some_iff fun _ _ => lt_length_of_codeAt?]
  simp only [IsFirstCode, hasCodeAt_iff, true_and]

theorem firstUnmarkedCode?_eq_some_iff (row : List Char) (code : Line) :
    firstUnmarkedCode? none row = some code ↔
      IsFirstCode (fun place => ∀ mark ∈ ['$', '*'], charBefore? none row place ≠ some mark)
        row code := by
  have found (place : Nat) (any : Line) : unmarkedAt? none row place = some any ↔
      (∀ mark ∈ ['$', '*'], charBefore? none row place ≠ some mark) ∧
        HasCodeAt row place any := by
    have marks : (∀ mark ∈ ['$', '*'], charBefore? none row place ≠ some mark) ↔
        ¬ (charBefore? none row place = some '$' ∨ charBefore? none row place = some '*') := by
      simp
    rw [unmarkedAt?, hasCodeAt_iff, marks]
    split
    next marked => simp only [marked, not_true_eq_false, reduceCtorEq, false_and]
    next plain => rw [and_iff_right plain]
  rw [firstUnmarkedCode?_eq, findSome?_range_eq_some_iff]
  · simp only [IsFirstCode, found, exists_and_left]
    constructor
    · rintro ⟨place, least, -, standing⟩
      exact ⟨place, least, standing⟩
    · rintro ⟨place, least, standing⟩
      exact ⟨place, least, least.1.1, standing⟩
  · intro place any hit
    exact lt_length_of_codeAt? ((hasCodeAt_iff row place any).mp ((found place any).mp hit).2)

theorem isMarkSpace_iff (c : Char) :
    isMarkSpace c = true ↔ c.toNat < 128 ∧ isBlankChar c = true := by
  have space : c = ' ' ↔ c.toNat = 0x20 := Char.toNat_inj.symm
  simp only [isMarkSpace, isBlankChar, space, Bool.or_eq_true, Bool.and_eq_true,
    decide_eq_true_eq, List.mem_cons, List.not_mem_nil, or_false]
  omega

/-- A code starts with a digit, so the white space behind a star ends where the code starts. -/
theorem codeOfStar?_eq_some_iff (row : List Char) (star : Nat) (code : Line) :
    codeOfStar? row star = some code ↔
      ∃ place, Marks row star place ∧ HasCodeAt row place code := by
  constructor
  · intro read
    unfold codeOfStar? at read
    split at read
    next isStar =>
      have rest := List.takeWhile_append_dropWhile (p := isMarkSpace)
        (l := row.drop (star + 1))
      have blank {c : Char} := @List.mem_takeWhile_imp _ isMarkSpace (row.drop (star + 1)) c
      generalize (row.drop (star + 1)).takeWhile isMarkSpace = gap at rest blank
      generalize (row.drop (star + 1)).dropWhile isMarkSpace = behind at rest read
      have place : row.drop (star + 1 + gap.length) = behind := by
        rw [← List.drop_drop, ← rest, List.drop_left]
      -- the code stands behind the white space that was passed, and that is the gap
      refine ⟨star + 1 + gap.length, ⟨isStar, by omega, ?_⟩, ?_⟩
      · intro between c after before here
        obtain ⟨steps, rfl⟩ := Nat.exists_eq_add_of_lt after
        rw [show star + steps + 1 = star + 1 + steps by omega, ← List.getElem?_drop, ← rest,
          List.getElem?_append_left (by omega)] at here
        exact (isMarkSpace_iff c).mp (blank (List.mem_of_getElem? here))
      · rw [hasCodeAt_iff, place, read]
    · cases read
  · rintro ⟨place, ⟨isStar, order, gap⟩, standing⟩
    obtain ⟨steps, rfl⟩ := Nat.exists_eq_add_of_lt order
    rw [show star + steps + 1 = star + 1 + steps by omega, hasCodeAt_iff, ← List.drop_drop]
      at standing
    have blank : ∀ c ∈ (row.drop (star + 1)).take steps, isMarkSpace c = true := by
      intro c member
      obtain ⟨step, here⟩ := List.getElem?_of_mem member
      rw [List.getElem?_take] at here
      split at here
      next inside =>
        rw [List.getElem?_drop] at here
        exact (isMarkSpace_iff c).mpr (gap _ c (by omega) (by omega) here)
      · cases here
    -- the gap is passed, and nothing of the code is
    have starts : ((row.drop (star + 1)).drop steps).dropWhile isMarkSpace =
        (row.drop (star + 1)).drop steps := by
      obtain ⟨shown, behind, split, shows⟩ := (codeAt?_eq_some_iff _ _).mp standing
      obtain ⟨c, later, value, rfl, digit⟩ := shows.exists_cons
      have solid : ¬ isMarkSpace c = true := by
        rw [isMarkSpace_iff, isBlankChar_eq_false_of_hexDigit? digit]
        simp
      rw [split, List.cons_append, List.dropWhile_cons_of_neg solid]
    rw [codeOfStar?, if_pos isStar, ← List.take_append_drop steps (row.drop (star + 1)),
      List.dropWhile_append_of_pos blank, starts, standing]

theorem firstActiveCode?_eq_some_iff (row : List Char) (code : Line) :
    firstActiveCode? row = some code ↔ IsMarkedCode row code := by
  have inside (star : Nat) (any : Line) (hit : codeOfStar? row star = some any) :
      star < row.length := by
    obtain ⟨place, marks, standing⟩ := (codeOfStar?_eq_some_iff row star any).mp hit
    exact Nat.lt_trans marks.order (lt_length_of_codeAt? ((hasCodeAt_iff row place any).mp standing))
  rw [firstActiveCode?_eq, findSome?_range_eq_some_iff inside]
  simp only [codeOfStar?_eq_some_iff, IsMarkedCode]
  rw [exists_congr]
  intro star
  refine and_congr_left' ?_
  rw [show {star | ∃ any place, Marks row star place ∧ HasCodeAt row place any} =
    {star | ∃ place any, Marks row star place ∧ HasCodeAt row place any} from
      Set.ext fun _ => exists_comm]

theorem isHeading_eq_false_iff (row : List Char) :
    isHeading row = false ↔ ∀ mark ∈ ['$', '*', '['], row.head? ≠ some mark := by
  simp [isHeading, and_assoc]

/-- What is found in a row is what the row carries. -/
theorem codeOfLine?_eq_some_iff (dialect : TextDialect) (selection : TextSelection)
    (row : List Char) (code : Line) :
    codeOfLine? dialect selection row = some code ↔ Carries row code dialect selection := by
  cases dialect with
  | dolphin =>
    rw [Carries, ← firstUnmarkedCode?_eq_some_iff, ← isHeading_eq_false_iff]
    cases heading : isHeading row <;> simp [codeOfLine?, heading]
  | ocarinaManager =>
    cases selection with
    | all => exact firstCode?_eq_some_iff row code
    | active => exact firstActiveCode?_eq_some_iff row code

/-! ### The rows of a text -/

def writtenRows (rows : List (List Char)) : List (List Char) :=
  rows.filter fun row => !isBlankLine row

/-- The first written row is a header or a group name. -/
def StartsWithHeading (rows : List (List Char)) : Prop :=
  ∃ first, (writtenRows rows).head? = some first ∧
    (first.head? = some '$' ∨ first.head? = some '[')

/-- The dialect that the first written row shows. -/
def dialectOf (rows : List (List Char)) : TextDialect :=
  ((writtenRows rows).head?.map TextDialect.ofLine).getD .ocarinaManager

def codesOfRows (selection : TextSelection) (rows : List (List Char)) : List Line :=
  (writtenRows rows).filterMap (codeOfLine? (dialectOf rows) selection)

theorem codesOfText_eq (selection : TextSelection) (text : List Char) :
    codesOfText selection text = codesOfRows selection (lines text) := by
  unfold codesOfText codesOfRows dialectOf writtenRows
  dsimp only
  split
  next nothing => rw [nothing, List.filterMap_nil]
  next first rest found => rw [found, List.head?_cons, Option.map_some, Option.getD_some]

theorem dialectOf_eq_dolphin_iff (rows : List (List Char)) :
    dialectOf rows = .dolphin ↔ StartsWithHeading rows := by
  unfold dialectOf StartsWithHeading
  cases (writtenRows rows).head? with
  | none => simp
  | some first =>
    simp only [Option.map_some, Option.getD_some, TextDialect.ofLine, Option.some.injEq,
      exists_eq_left']
    split <;> simp [*]

/-! ### A carriage return at the end of a row -/

/-- What shows a code holds no carriage return, so one at the end is not looked at. -/
theorem codeAt?_append_return (text : List Char) : codeAt? (text ++ ['\r']) = codeAt? text := by
  refine Option.ext fun code => ?_
  rw [codeAt?_eq_some_iff, codeAt?_eq_some_iff]
  constructor
  · rintro ⟨shown, behind, split, shows⟩
    -- the return is not a part of the code, so it is the last of what is behind
    obtain rfl | ⟨rest, last, rfl⟩ := List.eq_nil_or_concat behind
    · have inside : '\r' ∈ shown := by
        rw [List.append_nil] at split
        simp [← split]
      obtain ⟨value, digit⟩ | blank := shows.of_mem inside
      · cases digit
      · exact absurd blank (by decide)
    · rw [List.concat_eq_append, ← List.append_assoc] at split
      exact ⟨shown, rest, List.append_inj_left' split rfl, shows⟩
  · rintro ⟨shown, behind, rfl, shows⟩
    exact ⟨shown, behind ++ ['\r'], List.append_assoc _ _ _, shows⟩

theorem firstCode?_append_return (row : List Char) :
    firstCode? (row ++ ['\r']) = firstCode? row := by
  induction row with
  | nil => rfl
  | cons c rest ih =>
    have here := codeAt?_append_return (c :: rest)
    rw [List.cons_append] at here
    rw [List.cons_append, firstCode?, firstCode?, here, ih]

theorem firstUnmarkedCode?_append_return (previous : Option Char) (row : List Char) :
    firstUnmarkedCode? previous (row ++ ['\r']) = firstUnmarkedCode? previous row := by
  induction row generalizing previous with
  | nil =>
    have nothing : codeAt? ['\r'] = none := rfl
    simp [firstUnmarkedCode?, nothing]
  | cons c rest ih =>
    have here := codeAt?_append_return (c :: rest)
    rw [List.cons_append] at here
    rw [List.cons_append, firstUnmarkedCode?, firstUnmarkedCode?, here, ih]

theorem firstActiveCode?_append_return (row : List Char) :
    firstActiveCode? (row ++ ['\r']) = firstActiveCode? row := by
  induction row with
  | nil => rfl
  | cons c rest ih =>
    have behind : codeAt? ((rest ++ ['\r']).dropWhile isMarkSpace) =
        codeAt? (rest.dropWhile isMarkSpace) := by
      rw [List.dropWhile_append]
      split
      next all =>
        rw [List.isEmpty_iff.mp all]
        rfl
      next => rw [codeAt?_append_return]
    rw [List.cons_append, firstActiveCode?, firstActiveCode?, behind, ih]

theorem codeOfLine?_append_return (dialect : TextDialect) (selection : TextSelection)
    (row : List Char) :
    codeOfLine? dialect selection (row ++ ['\r']) = codeOfLine? dialect selection row := by
  have heading : isHeading (row ++ ['\r']) = isHeading row := by
    cases row <;> simp [isHeading]
  cases dialect <;> cases selection <;>
    simp [codeOfLine?, heading, firstCode?_append_return, firstUnmarkedCode?_append_return,
      firstActiveCode?_append_return]

theorem ofLine_append_return (row : List Char) :
    TextDialect.ofLine (row ++ ['\r']) = TextDialect.ofLine row := by
  cases row <;> simp [TextDialect.ofLine]

theorem isBlankLine_append_return (row : List Char) :
    isBlankLine (row ++ ['\r']) = isBlankLine row := by
  have blank : isBlankChar '\r' = true := rfl
  simp [isBlankLine, blank]

/-- Rows as they are read: a carriage return at the end may be lost. -/
def AreReadAs (rows reads : List (List Char)) : Prop :=
  List.Forall₂ (fun row read => read = row ∨ read = dropReturn row) rows reads

/-- It does not matter for a row whether its last carriage return is lost. -/
theorem of_read {row read : List Char} (same : read = row ∨ read = dropReturn row) :
    isBlankLine read = isBlankLine row ∧ TextDialect.ofLine read = TextDialect.ofLine row ∧
      ∀ dialect selection, codeOfLine? dialect selection read = codeOfLine? dialect selection row := by
  obtain rfl | rfl := same
  · exact ⟨rfl, rfl, fun _ _ => rfl⟩
  · obtain same | longer := dropReturn_cases row
    · rw [same]
      exact ⟨rfl, rfl, fun _ _ => rfl⟩
    · generalize dropReturn row = front at longer
      subst longer
      exact ⟨(isBlankLine_append_return front).symm, (ofLine_append_return front).symm,
        fun dialect selection => (codeOfLine?_append_return dialect selection front).symm⟩

theorem codesOfRows_congr {rows reads : List (List Char)} (same : AreReadAs rows reads)
    (selection : TextSelection) : codesOfRows selection reads = codesOfRows selection rows := by
  -- the dialect is that of the first written row, so the rows are compared in every dialect
  have written (dialect : TextDialect) :
      (writtenRows reads).map TextDialect.ofLine = (writtenRows rows).map TextDialect.ofLine ∧
        (writtenRows reads).filterMap (codeOfLine? dialect selection) =
          (writtenRows rows).filterMap (codeOfLine? dialect selection) := by
    induction same with
    | nil => exact ⟨rfl, rfl⟩
    | @cons row read rows reads first _ ih =>
      obtain ⟨blank, shown, code⟩ := of_read first
      unfold writtenRows at ih ⊢
      rw [List.filter_cons, List.filter_cons, blank]
      cases isBlankLine row with
      | true => simpa using ih
      | false => simp [shown, code, ih.1, List.filterMap_cons, ih.2]
  have dialect : dialectOf reads = dialectOf rows := by
    rw [dialectOf, dialectOf, ← List.head?_map, ← List.head?_map, (written .dolphin).1]
  rw [codesOfRows, codesOfRows, dialect, (written _).2]

/-! ### Blank lines -/

theorem writtenRows_append (rows others : List (List Char)) :
    writtenRows (rows ++ others) = writtenRows rows ++ writtenRows others :=
  List.filter_append _ _

theorem writtenRows_of_blank {blanks : List (List Char)}
    (blank : ∀ row ∈ blanks, isBlankLine row = true) : writtenRows blanks = [] := by
  simpa [writtenRows] using blank

/-- Codes and dialect are those of the written rows. -/
theorem codesOfRows_of_written {rows others : List (List Char)}
    (same : writtenRows rows = writtenRows others) (selection : TextSelection) :
    codesOfRows selection rows = codesOfRows selection others := by
  rw [codesOfRows, codesOfRows, dialectOf, dialectOf, same]

/-- A line of white space is put into a text: between two lines, in front of all of them, behind a
last line that has no ending, or behind one that has. -/
inductive AddsBlankLine : List Char → List Char → Prop where
  | inside {before blank : List Char} (ending : LineEnding) (after : List Char)
      (ends : EndsRow before) (white : isBlankLine blank = true) (single : '\n' ∉ blank) :
      AddsBlankLine (before ++ after) (before ++ (blank ++ ending.chars ++ after))
  | behind {blank : List Char} (text : List Char) (ending : LineEnding)
      (white : isBlankLine blank = true) (single : '\n' ∉ blank) :
      AddsBlankLine text (text ++ ending.chars ++ blank)
  | last {before blank : List Char} (ends : EndsRow before) (white : isBlankLine blank = true)
      (single : '\n' ∉ blank) : AddsBlankLine before (before ++ blank)

/-- A blank text without a line feed has blank lines only. -/
theorem isBlankLine_of_mem_lines {blank : List Char} (white : isBlankLine blank = true)
    (single : '\n' ∉ blank) : ∀ row ∈ lines blank, isBlankLine row = true := by
  by_cases empty : blank = []
  · simp [empty]
  · simpa [lines_of_notMem single empty] using white

theorem codesOfText_of_addsBlankLine {text longer : List Char} (adds : AddsBlankLine text longer)
    (selection : TextSelection) : codesOfText selection longer = codesOfText selection text := by
  rw [codesOfText_eq, codesOfText_eq]
  cases adds with
  | inside ending after ends white single =>
    obtain ⟨read, same, -, split⟩ := lines_append_ending single ending after
    have blank_read : ∀ row ∈ [read], isBlankLine row = true := by
      simpa [(of_read same).1] using white
    apply codesOfRows_of_written
    rw [lines_append ends, lines_append ends, split, writtenRows_append, writtenRows_append,
      ← List.singleton_append, writtenRows_append, writtenRows_of_blank blank_read,
      List.nil_append]
  | last ends white single =>
    apply codesOfRows_of_written
    rw [lines_append ends, writtenRows_append,
      writtenRows_of_blank (isBlankLine_of_mem_lines white single), List.append_nil]
  | @behind blank text ending white single =>
    -- the last line gets an ending, which may take a carriage return from it
    obtain ⟨before, row, rfl, ends, last⟩ := exists_unfinished text
    obtain ⟨read, same, -, split⟩ := lines_append_ending last ending _
    have unended : writtenRows (lines row) = writtenRows [row] := by
      by_cases empty : row = []
      · rw [empty, lines_nil]
        rfl
      · rw [lines_of_notMem last empty]
    have others : AreReadAs (lines before) (lines before) :=
      List.forall₂_same.mpr fun _ _ => Or.inl rfl
    have reads : AreReadAs (lines before ++ [row]) (lines before ++ [read]) :=
      List.rel_append others (.cons same .nil)
    have added : writtenRows (lines before ++ [read] ++ lines blank) =
        writtenRows (lines before ++ [read]) := by
      rw [writtenRows_append, writtenRows_of_blank (isBlankLine_of_mem_lines white single),
        List.append_nil]
    rw [List.append_assoc, List.append_assoc, ← List.append_assoc row, lines_append ends,
      lines_append ends, split, ← List.singleton_append, ← List.append_assoc,
      codesOfRows_of_written added, codesOfRows_congr reads]
    apply codesOfRows_of_written
    rw [writtenRows_append, writtenRows_append, unended]

/-! ### All codes and active codes -/

/-- A row that carries an active code carries some code. -/
theorem isSome_codeOfLine?_all {dialect : TextDialect} {row : List Char}
    (active : (codeOfLine? dialect .active row).isSome = true) :
    (codeOfLine? dialect .all row).isSome = true := by
  cases dialect with
  | dolphin => exact active
  | ocarinaManager =>
    obtain ⟨code, found⟩ := Option.isSome_iff_exists.mp active
    obtain ⟨-, -, place, -, standing⟩ := (firstActiveCode?_eq_some_iff row code).mp found
    rw [hasCodeAt_iff] at standing
    have inside := lt_length_of_codeAt? standing
    show (firstCode? row).isSome = true
    rw [firstCode?_eq, List.findSome?_isSome_iff]
    exact ⟨place, List.mem_range.mpr inside, by rw [standing]; rfl⟩

theorem length_active_le_all (text : List Char) :
    (codesOfText .active text).length ≤ (codesOfText .all text).length := by
  rw [codesOfText_eq, codesOfText_eq, codesOfRows, codesOfRows, List.length_filterMap_eq_countP,
    List.length_filterMap_eq_countP]
  exact List.countP_mono_left fun row _ active => isSome_codeOfLine?_all active

/-! ### The codes of a text -/

/-- The codes of a text by the rules for its rows. -/
def ReadsAs (selection : TextSelection) (text : List Char) (codes : List Line) : Prop :=
  ∃ rows dialect carried, HasRows text rows ∧
    (dialect = .dolphin ↔ StartsWithHeading rows) ∧
    List.Forall₂ (fun row code? => ∀ code, code? = some code ↔ Carries row code dialect selection)
      (writtenRows rows) carried ∧
    codes = carried.reduceOption

theorem readsAs_iff (selection : TextSelection) (text : List Char) (codes : List Line) :
    ReadsAs selection text codes ↔ codesOfText selection text = codes := by
  rw [codesOfText_eq]
  constructor
  · rintro ⟨rows, dialect, carried, made, shown, each, rfl⟩
    obtain rfl := hasRows_iff.mp made
    have same : dialectOf (lines text) = dialect := by
      have both := (dialectOf_eq_dolphin_iff (lines text)).trans shown.symm
      generalize dialectOf (lines text) = other at both
      revert both
      cases other <;> cases dialect <;> simp
    have found : (writtenRows (lines text)).map (codeOfLine? dialect selection) = carried := by
      rw [← List.forall₂_eq_eq_eq, List.forall₂_map_left_iff]
      refine each.imp fun row code? rule => Option.ext fun code => ?_
      rw [codeOfLine?_eq_some_iff, rule]
    rw [codesOfRows, same, ← found, List.reduceOption, List.filterMap_map]
    rfl
  · rintro rfl
    refine ⟨lines text, dialectOf (lines text),
      (writtenRows (lines text)).map (codeOfLine? (dialectOf (lines text)) selection),
      hasRows_lines text, dialectOf_eq_dolphin_iff _, ?_, ?_⟩
    · rw [List.forall₂_map_right_iff, List.forall₂_same]
      exact fun row _ code => codeOfLine?_eq_some_iff _ _ row code
    · rw [codesOfRows, List.reduceOption, List.filterMap_map]
      rfl

/-- The codes of a text are those that its rows carry in the dialect that the first written row
shows, and the bytes of a text are those of its codes in order. Blank lines change nothing wherever
they are put in or taken out, and there are never more active codes than codes. -/
theorem text_codes_exact (selection : TextSelection) :
    (∀ bytes body, textBody selection bytes = body ↔
      ∃ codes, ReadsAs selection (decodeText bytes) codes ∧ body = codes.flatMap Line.bytes) ∧
    (∀ text codes, codesOfText selection text = codes ↔ ReadsAs selection text codes) ∧
    (∀ text other, Relation.EqvGen AddsBlankLine text other →
      codesOfText selection text = codesOfText selection other) ∧
    ∀ text, (codesOfText .active text).length ≤ (codesOfText .all text).length := by
  refine ⟨?_, fun text codes => (readsAs_iff selection text codes).symm, ?_, length_active_le_all⟩
  · intro bytes body
    simp only [readsAs_iff, exists_eq_left', textBody]
    exact eq_comm
  · intro text other same
    induction same with
    | rel text longer adds => exact (codesOfText_of_addsBlankLine adds selection).symm
    | refl text => rfl
    | symm text other _ ih => exact ih.symm
    | trans text middle other _ _ first second => exact first.trans second

/-- A blank line in front of a heading leaves the dialect, and so the codes, as they are. -/
theorem text_codes_exact_blankLine :
    Relation.EqvGen AddsBlankLine "$Name\n04000000 0000002a".toList
      " \t\r\n$Name\n04000000 0000002a".toList ∧
    codesOfText .active " \t\r\n$Name\n04000000 0000002a".toList = [⟨0x04000000, 0x2A⟩] ∧
    ReadsAs .active "$Name\n04000000 0000002a".toList [⟨0x04000000, 0x2A⟩] := by
  have adds : AddsBlankLine "$Name\n04000000 0000002a".toList
      " \t\r\n$Name\n04000000 0000002a".toList :=
    @AddsBlankLine.inside [] " \t".toList .returnFeed "$Name\n04000000 0000002a".toList
      (Or.inl rfl) (by decide) (by decide)
  have shown : codesOfText .active "$Name\n04000000 0000002a".toList = [⟨0x04000000, 0x2A⟩] := by
    decide +kernel
  have exact_codes := text_codes_exact .active
  refine ⟨.rel _ _ adds, ?_, (exact_codes.2.1 _ _).mp shown⟩
  rw [← exact_codes.2.2.1 _ _ (.rel _ _ adds), shown]

end CubePatch
