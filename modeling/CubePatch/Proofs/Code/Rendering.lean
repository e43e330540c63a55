import CubePatch.Proofs.Code.Text
import CubePatch.Proofs.Text.Encoding

/-!
Code lists that are written as text and read again.

A text is written row by row. In one dialect a row shows a code, is a heading or is blank; in the
other it shows a code behind a star or without one, is a title or is blank. What is in front of the
code in its row is no digit, so the scanner walks past it, and the code is the first one it meets.
What is behind the code in its row is not looked at.

## Main result

`rendered_codes_exact`: reading what was written gives the codes back, in order.
-/
namespace CubePatch

/-- A text with certain rows. A carriage return at the end of a row may stand in front of a line
feed, so the rows are not the only ones that the text can be taken to have. -/
inductive IsRenderingOf : List Char → List (List Char) → Prop where
  | nil : IsRenderingOf [] []
  | last {row : List Char} (single : '\n' ∉ row) (nonempty : row ≠ []) : IsRenderingOf row [row]
  | ended {row text : List Char} {rows : List (List Char)} (ending : LineEnding)
      (single : '\n' ∉ row) (rest : IsRenderingOf text rows) :
      IsRenderingOf (row ++ ending.chars ++ text) (row :: rows)

/-- Rows with codes between headings and blank rows. -/
inductive DolphinRows : List (List Char) → List Line → Prop where
  | nil : DolphinRows [] []
  | code {code : Line} {shown : List Char} {rows : List (List Char)} {codes : List Line}
      (shows : code.IsShownBy shown) (tail : List Char) (rest : DolphinRows rows codes) :
      DolphinRows ((shown ++ tail) :: rows) (code :: codes)
  | heading {mark : Char} {rows : List (List Char)} {codes : List Line}
      (marks : mark ∈ ['$', '*', '[']) (tail : List Char) (rest : DolphinRows rows codes) :
      DolphinRows ((mark :: tail) :: rows) codes
  | blank {row : List Char} {rows : List (List Char)} {codes : List Line}
      (white : isBlankLine row = true) (rest : DolphinRows rows codes) :
      DolphinRows (row :: rows) codes

/-- Rows with codes, each of them selected or not, between titles and blank rows. -/
inductive OcarinaRows : List (List Char) → List (Bool × Line) → Prop where
  | nil : OcarinaRows [] []
  | selected {code : Line} {lead gap shown : List Char} {rows : List (List Char)}
      {codes : List (Bool × Line)} (white : isBlankLine lead = true)
      (space : ∀ c ∈ gap, c.toNat < 128 ∧ isBlankChar c = true) (shows : code.IsShownBy shown)
      (tail : List Char) (rest : OcarinaRows rows codes) :
      OcarinaRows ((lead ++ '*' :: (gap ++ (shown ++ tail))) :: rows) ((true, code) :: codes)
  | other {code : Line} {shown tail : List Char} {rows : List (List Char)}
      {codes : List (Bool × Line)} (shows : code.IsShownBy shown) (unmarked : '*' ∉ tail)
      (rest : OcarinaRows rows codes) :
      OcarinaRows ((shown ++ tail) :: rows) ((false, code) :: codes)
  | title {row : List Char} {rows : List (List Char)} {codes : List (Bool × Line)}
      (unmarked : '*' ∉ row) (plain : ∀ place code, ¬ HasCodeAt row place code)
      (rest : OcarinaRows rows codes) : OcarinaRows (row :: rows) codes
  | blank {row : List Char} {rows : List (List Char)} {codes : List (Bool × Line)}
      (white : isBlankLine row = true) (rest : OcarinaRows rows codes) :
      OcarinaRows (row :: rows) codes

/-- Rows that are written one after the other, each with its ending. -/
def renderRows (rows : List (List Char × LineEnding)) : List Char :=
  rows.flatMap fun (row, ending) => row ++ ending.chars

theorem isRenderingOf_renderRows {rows : List (List Char × LineEnding)}
    (single : ∀ row ∈ rows, '\n' ∉ row.1) :
    IsRenderingOf (renderRows rows) (rows.map (·.1)) := by
  induction rows with
  | nil => exact .nil
  | cons row rows ih =>
    obtain ⟨first, later⟩ := List.forall_mem_cons.mp single
    exact .ended row.2 first (ih later)

/-! ### Walking to a code -/

theorem codeAt?_shown {code : Line} {shown : List Char} (shows : code.IsShownBy shown)
    (tail : List Char) : codeAt? (shown ++ tail) = some code :=
  (codeAt?_eq_some_iff _ _).mpr ⟨shown, tail, rfl, shows⟩

/-- A code starts with a digit. -/
theorem codeAt?_cons_of_not_digit {c : Char} (plain : hexDigit? c = none) (rest : List Char) :
    codeAt? (c :: rest) = none := by
  refine Option.eq_none_iff_forall_ne_some.mpr fun code read => ?_
  obtain ⟨shown, behind, split, shows⟩ := (codeAt?_eq_some_iff _ _).mp read
  obtain ⟨first, later, value, rfl, digit⟩ := shows.exists_cons
  obtain ⟨rfl, -⟩ := List.cons.inj split
  rw [plain] at digit
  cases digit

theorem firstCode?_of_codeAt? {row : List Char} {code : Line} (read : codeAt? row = some code) :
    firstCode? row = some code := by
  cases row with
  | nil => cases read
  | cons c rest => rw [firstCode?, read]

theorem firstUnmarkedCode?_of_codeAt? {row : List Char} {code : Line}
    (read : codeAt? row = some code) : firstUnmarkedCode? none row = some code := by
  cases row with
  | nil => cases read
  | cons c rest => simp [firstUnmarkedCode?, read]

theorem firstCode?_append_of_not_digit {front : List Char}
    (plain : ∀ c ∈ front, hexDigit? c = none) (row : List Char) :
    firstCode? (front ++ row) = firstCode? row := by
  induction front with
  | nil => rfl
  | cons c front ih =>
    obtain ⟨first, later⟩ := List.forall_mem_cons.mp plain
    rw [List.cons_append, firstCode?, codeAt?_cons_of_not_digit first, ih later]

theorem firstActiveCode?_append_of_notMem {front : List Char} (unmarked : '*' ∉ front)
    (row : List Char) : firstActiveCode? (front ++ row) = firstActiveCode? row := by
  induction front with
  | nil => rfl
  | cons c front ih =>
    obtain ⟨here, later⟩ := not_or.mp (List.mem_cons.not.mp unmarked)
    rw [List.cons_append, firstActiveCode?, if_neg (Ne.symm here), ih later]

theorem firstActiveCode?_of_notMem {row : List Char} (unmarked : '*' ∉ row) :
    firstActiveCode? row = none := by
  simpa [firstActiveCode?] using firstActiveCode?_append_of_notMem unmarked []

theorem hexDigit?_eq_none_of_blank {c : Char} (white : isBlankChar c = true) :
    hexDigit? c = none := by
  refine Option.eq_none_iff_forall_ne_some.mpr fun value digit => ?_
  rw [isBlankChar_eq_false_of_hexDigit? digit] at white
  cases white

theorem isBlankLine_shown {code : Line} {shown : List Char} (shows : code.IsShownBy shown)
    (tail : List Char) : isBlankLine (shown ++ tail) = false := by
  obtain ⟨c, rest, value, rfl, digit⟩ := shows.exists_cons
  simp [isBlankLine, isBlankChar_eq_false_of_hexDigit? digit]

theorem Line.IsShownBy.notMem {code : Line} {shown : List Char} (shows : code.IsShownBy shown) :
    '*' ∉ shown := by
  intro member
  obtain ⟨value, digit⟩ | blank := shows.of_mem member
  · cases digit
  · exact absurd blank (by decide)

/-! ### What the rows of each dialect carry -/

theorem codeOfLine?_dolphin_code {code : Line} {shown : List Char} (shows : code.IsShownBy shown)
    (tail : List Char) (selection : TextSelection) :
    codeOfLine? .dolphin selection (shown ++ tail) = some code := by
  have plain : isHeading (shown ++ tail) = false := by
    obtain ⟨c, rest, value, rfl, digit⟩ := shows.exists_cons
    have others : c ≠ '$' ∧ c ≠ '*' ∧ c ≠ '[' := by
      refine ⟨?_, ?_, ?_⟩ <;> · rintro rfl; cases digit
    simp [isHeading, others]
  have found := firstUnmarkedCode?_of_codeAt? (codeAt?_shown shows tail)
  simp [codeOfLine?, plain, found]

theorem codeOfLine?_dolphin_heading {mark : Char} (marks : mark ∈ ['$', '*', '['])
    (tail : List Char) (selection : TextSelection) :
    codeOfLine? .dolphin selection (mark :: tail) = none ∧ isBlankLine (mark :: tail) = false := by
  simp only [List.mem_cons, List.not_mem_nil, or_false] at marks
  obtain rfl | rfl | rfl := marks <;> exact ⟨rfl, rfl⟩

theorem codeOfLine?_ocarina_selected {code : Line} {lead gap shown : List Char}
    (white : isBlankLine lead = true) (space : ∀ c ∈ gap, c.toNat < 128 ∧ isBlankChar c = true)
    (shows : code.IsShownBy shown) (tail : List Char) (selection : TextSelection) :
    codeOfLine? .ocarinaManager selection (lead ++ '*' :: (gap ++ (shown ++ tail))) =
      some code := by
  have blank : ∀ c ∈ lead, isBlankChar c = true := List.all_eq_true.mp white
  have read := codeAt?_shown shows tail
  cases selection with
  | all =>
    -- no code starts in front of the star, at the star or in the gap
    have star : hexDigit? '*' = none := rfl
    show firstCode? _ = _
    rw [firstCode?_append_of_not_digit fun c member => hexDigit?_eq_none_of_blank (blank c member),
      firstCode?, codeAt?_cons_of_not_digit star,
      firstCode?_append_of_not_digit fun c member => hexDigit?_eq_none_of_blank (space c member).2,
      firstCode?_of_codeAt? read]
  | active =>
    have unmarked : '*' ∉ lead := fun member => absurd (blank _ member) (by decide)
    -- the first star is the one in front of the code, and the gap is all that is passed
    have behind : (gap ++ (shown ++ tail)).dropWhile isMarkSpace = shown ++ tail := by
      obtain ⟨c, rest, value, rfl, digit⟩ := shows.exists_cons
      have solid : ¬ isMarkSpace c = true := by
        rw [isMarkSpace_iff, isBlankChar_eq_false_of_hexDigit? digit]
        simp
      rw [List.dropWhile_append_of_pos fun c member => (isMarkSpace_iff c).mpr (space c member),
        List.cons_append, List.dropWhile_cons_of_neg solid]
    show firstActiveCode? _ = _
    rw [firstActiveCode?_append_of_notMem unmarked, firstActiveCode?, if_pos rfl, behind, read]

theorem codeOfLine?_ocarina_other {code : Line} {shown tail : List Char}
    (shows : code.IsShownBy shown) (unmarked : '*' ∉ tail) :
    codeOfLine? .ocarinaManager .all (shown ++ tail) = some code ∧
      codeOfLine? .ocarinaManager .active (shown ++ tail) = none := by
  have starless : '*' ∉ shown ++ tail := by simp [shows.notMem, unmarked]
  exact ⟨firstCode?_of_codeAt? (codeAt?_shown shows tail), firstActiveCode?_of_notMem starless⟩

theorem codeOfLine?_ocarina_title {row : List Char} (unmarked : '*' ∉ row)
    (plain : ∀ place code, ¬ HasCodeAt row place code) (selection : TextSelection) :
    codeOfLine? .ocarinaManager selection row = none := by
  cases selection with
  | active => exact firstActiveCode?_of_notMem unmarked
  | all =>
    refine Option.eq_none_iff_forall_ne_some.mpr fun code found => ?_
    obtain ⟨place, -, standing⟩ := (firstCode?_eq_some_iff row code).mp found
    exact plain place code standing

theorem isBlankLine_selected (lead behind : List Char) :
    isBlankLine (lead ++ '*' :: behind) = false := by
  have star : isBlankChar '*' = false := rfl
  simp [isBlankLine, star]

/-! ### What is written is read -/

/-- The rows of a text are the ones it was written with, up to a carriage return at their ends. -/
theorem IsRenderingOf.areReadAs {text : List Char} {rows : List (List Char)}
    (rendered : IsRenderingOf text rows) : AreReadAs rows (lines text) := by
  induction rendered with
  | nil =>
    rw [lines_nil]
    exact .nil
  | last single nonempty =>
    rw [lines_of_notMem single nonempty]
    exact .cons (Or.inl rfl) .nil
  | @ended row text rows ending single rest ih =>
    obtain ⟨read, same, -, split⟩ := lines_append_ending single ending text
    rw [split]
    exact .cons same ih

/-- A written row gives its code, and a blank one nothing. -/
theorem filterMap_writtenRows_cons (dialect : TextDialect) (selection : TextSelection)
    (row : List Char) (rows : List (List Char)) :
    (writtenRows (row :: rows)).filterMap (codeOfLine? dialect selection) =
      (if isBlankLine row then [] else (codeOfLine? dialect selection row).toList) ++
        (writtenRows rows).filterMap (codeOfLine? dialect selection) := by
  cases blank : isBlankLine row with
  | true => simp [writtenRows, blank]
  | false =>
    cases found : codeOfLine? dialect selection row <;> simp [writtenRows, blank, found]

theorem DolphinRows.filterMap_eq {rows : List (List Char)} {codes : List Line}
    (shown : DolphinRows rows codes) (selection : TextSelection) :
    (writtenRows rows).filterMap (codeOfLine? .dolphin selection) = codes := by
  induction shown with
  | nil => rfl
  | code shows tail _ ih =>
    simp [filterMap_writtenRows_cons, isBlankLine_shown shows,
      codeOfLine?_dolphin_code shows, ih]
  | heading marks tail _ ih =>
    obtain ⟨nothing, solid⟩ := codeOfLine?_dolphin_heading marks tail selection
    simp [filterMap_writtenRows_cons, solid, nothing, ih]
  | blank white _ ih => simp [filterMap_writtenRows_cons, white, ih]

/-- The codes that a selection takes. -/
def selectedCodes : TextSelection → List (Bool × Line) → List Line
  | .active, codes => (codes.filter (·.1)).map (·.2)
  | .all, codes => codes.map (·.2)

theorem OcarinaRows.filterMap_eq {rows : List (List Char)} {codes : List (Bool × Line)}
    (shown : OcarinaRows rows codes) (selection : TextSelection) :
    (writtenRows rows).filterMap (codeOfLine? .ocarinaManager selection) =
      selectedCodes selection codes := by
  induction shown with
  | nil => cases selection <;> rfl
  | selected white space shows tail _ ih =>
    rw [filterMap_writtenRows_cons, isBlankLine_selected,
      codeOfLine?_ocarina_selected white space shows, ih]
    cases selection <;> simp [selectedCodes]
  | other shows unmarked _ ih =>
    obtain ⟨taken, left⟩ := codeOfLine?_ocarina_other shows unmarked
    rw [filterMap_writtenRows_cons, isBlankLine_shown shows, ih]
    cases selection <;> simp [selectedCodes, taken, left]
  | title unmarked plain _ ih =>
    simp [filterMap_writtenRows_cons, codeOfLine?_ocarina_title unmarked plain, ih]
  | blank white _ ih => simp [filterMap_writtenRows_cons, white, ih]

/-- Codes that were written as text and encoded are read as they were, whichever of the rows are
headings, titles or blank, however lines end, and whatever stands behind a code in its row. -/
theorem rendered_codes_exact {text : List Char} {rows : List (List Char)} {bytes : Bytes}
    (rendered : IsRenderingOf text rows) (encoded : IsUtf8Of text bytes) :
    (∀ codes, StartsWithHeading rows → DolphinRows rows codes → ∀ selection,
      textBody selection bytes = codes.flatMap Line.bytes) ∧
    ∀ codes, ¬ StartsWithHeading rows → OcarinaRows rows codes →
      textBody .active bytes = ((codes.filter (·.1)).map (·.2)).flatMap Line.bytes ∧
      textBody .all bytes = (codes.map (·.2)).flatMap Line.bytes := by
  have read (selection : TextSelection) :
      textBody selection bytes = (codesOfRows selection rows).flatMap Line.bytes := by
    rw [textBody, decodeText_of_utf8 encoded, codesOfText_eq,
      codesOfRows_congr rendered.areReadAs]
  refine ⟨?_, ?_⟩
  · intro codes starts shown selection
    rw [read, codesOfRows, (dialectOf_eq_dolphin_iff rows).mpr starts, shown.filterMap_eq]
  · intro codes starts shown
    have dialect : dialectOf rows = .ocarinaManager := by
      have not_dolphin := (dialectOf_eq_dolphin_iff rows).not.mpr starts
      cases shape : dialectOf rows with
      | dolphin => exact absurd shape not_dolphin
      | ocarinaManager => rfl
    rw [read, read, codesOfRows, codesOfRows, dialect, shown.filterMap_eq, shown.filterMap_eq]
    exact ⟨rfl, rfl⟩

/-! ### Two texts -/

/-- A heading, a code in digits of either case with more digits behind it, a note and a blank row. -/
def dolphinRows : List (List Char × LineEnding) :=
  [("$Name".toList, .returnFeed),
    ("0400000A 0000002a".toList ++ "9 *04000000 00000000".toList, .feed),
    ("*04000000 00000000".toList, .feed), ("\t".toList, .returnFeed)]

/-- A title, a code behind a star with white space around the star, and a code without one. -/
def ocarinaRows : List (List Char × LineEnding) :=
  [("Name".toList, .feed),
    ([' '] ++ '*' :: (['\t'] ++ ("0400000A 0000002a".toList ++ "*".toList)), .feed),
    ("0400000A 0000002a".toList ++ "0".toList, .returnFeed)]

theorem isShownBy_mixedCase : Line.IsShownBy ⟨0x0400000A, 0x2A⟩ "0400000A 0000002a".toList :=
  ⟨"0400000A".toList, ' ', "0000002a".toList, by decide, by unfold IsSpelledBy; decide, by decide,
    by unfold IsSpelledBy; decide⟩

theorem rendered_codes_exact_sampleRows :
    (IsRenderingOf (renderRows dolphinRows) (dolphinRows.map (·.1)) ∧
      StartsWithHeading (dolphinRows.map (·.1)) ∧
      textBody .active ((renderRows dolphinRows).flatMap String.utf8EncodeChar) =
        [0x04, 0, 0, 0x0A, 0, 0, 0, 0x2A]) ∧
    IsRenderingOf (renderRows ocarinaRows) (ocarinaRows.map (·.1)) ∧
      ¬ StartsWithHeading (ocarinaRows.map (·.1)) ∧
      textBody .active ((renderRows ocarinaRows).flatMap String.utf8EncodeChar) =
        [0x04, 0, 0, 0x0A, 0, 0, 0, 0x2A] := by
  have dolphin : IsRenderingOf (renderRows dolphinRows) (dolphinRows.map (·.1)) :=
    isRenderingOf_renderRows (by decide)
  have starts : StartsWithHeading (dolphinRows.map (·.1)) :=
    ⟨"$Name".toList, by decide, by decide⟩
  have shown : DolphinRows (dolphinRows.map (·.1)) [⟨0x0400000A, 0x2A⟩] :=
    .heading (by decide) _ (.code isShownBy_mixedCase _
      (.heading (by decide) _ (.blank (by decide) .nil)))
  have ocarina : IsRenderingOf (renderRows ocarinaRows) (ocarinaRows.map (·.1)) :=
    isRenderingOf_renderRows (by decide)
  have other : ¬ StartsWithHeading (ocarinaRows.map (·.1)) := by
    rintro ⟨first, same, marked⟩
    have title : (writtenRows (ocarinaRows.map (·.1))).head? = some "Name".toList := by decide
    obtain rfl : "Name".toList = first := Option.some.inj (title.symm.trans same)
    exact absurd marked (by decide)
  have plain : ∀ place code, ¬ HasCodeAt "Name".toList place code := by
    intro place code standing
    have room := standing.add_le_length
    have short : "Name".toList.length = 4 := rfl
    omega
  have space : ∀ c ∈ ['\t'], c.toNat < 128 ∧ isBlankChar c = true :=
    List.forall_mem_singleton.mpr ⟨by decide, rfl⟩
  have marked : OcarinaRows (ocarinaRows.map (·.1))
      [(true, ⟨0x0400000A, 0x2A⟩), (false, ⟨0x0400000A, 0x2A⟩)] :=
    .title (by decide) plain (.selected (by decide) space isShownBy_mixedCase _
      (.other isShownBy_mixedCase (by decide) .nil))
  exact ⟨⟨dolphin, starts,
      (rendered_codes_exact dolphin (.bare (by decide))).1 _ starts shown .active⟩,
    ocarina, other, ((rendered_codes_exact ocarina (.bare (by decide))).2 _ other marked).1⟩

end CubePatch
