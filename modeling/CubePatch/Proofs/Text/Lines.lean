import CubePatch.Text.Split

/-!
Texts and the lines they are made of.

A line ends with a line feed, alone or behind a carriage return, and the last line may end with the
text. There is one way to take a text apart into such lines, and splitting finds it. Where a line
ends, the text behind it is split as if it stood alone.
-/
namespace CubePatch

/-- How a line of a text ends. -/
inductive LineEnding where
  | feed
  | returnFeed
  deriving DecidableEq, Repr

def LineEnding.chars : LineEnding → List Char
  | .feed => ['\n']
  | .returnFeed => ['\r', '\n']

/-- A text is made of rows. A carriage return in front of a line feed belongs to the ending. -/
inductive HasRows : List Char → List (List Char) → Prop where
  | nil : HasRows [] []
  | last {row : List Char} (single : '\n' ∉ row) (nonempty : row ≠ []) : HasRows row [row]
  | ended {row text : List Char} {rows : List (List Char)} (ending : LineEnding)
      (single : '\n' ∉ row) (bare : ending = .feed → row.getLast? ≠ some '\r')
      (rest : HasRows text rows) : HasRows (row ++ ending.chars ++ text) (row :: rows)

/-- Whatever is put behind a text starts a new line. -/
def EndsRow (text : List Char) : Prop :=
  text = [] ∨ text.getLast? = some '\n'

/-! ### Splitting a text into lines -/

/-- Text without a separator is passed over up to what stands behind it. -/
theorem dropWhile_append_of_notMem {separator : Char} {row : List Char} (single : separator ∉ row)
    (text : List Char) :
    (row ++ text).dropWhile (· ≠ separator) = text.dropWhile (· ≠ separator) ∧
      (row ++ text).takeWhile (· ≠ separator) = row ++ text.takeWhile (· ≠ separator) := by
  have each : ∀ c ∈ row, decide (c ≠ separator) = true := by
    intro c member
    simpa using fun same : c = separator => single (same ▸ member)
  exact ⟨List.dropWhile_append_of_pos each, List.takeWhile_append_of_pos each⟩

theorem splitAtEach_of_notMem {separator : Char} {text : List Char} (single : separator ∉ text) :
    splitAtEach separator text = [text] := by
  have all : text.dropWhile (· ≠ separator) = [] := by
    simpa using (dropWhile_append_of_notMem single []).1
  unfold splitAtEach
  split
  · rfl
  next found =>
    rw [all] at found
    cases found

theorem splitAtEach_append {separator : Char} {row : List Char} (single : separator ∉ row)
    (text : List Char) :
    splitAtEach separator (row ++ separator :: text) = row :: splitAtEach separator text := by
  have behind : (row ++ separator :: text).dropWhile (· ≠ separator) = separator :: text := by
    rw [(dropWhile_append_of_notMem single _).1, List.dropWhile_cons_of_neg (by simp)]
  have front : (row ++ separator :: text).takeWhile (· ≠ separator) = row := by
    rw [(dropWhile_append_of_notMem single _).2, List.takeWhile_cons_of_neg (by simp),
      List.append_nil]
  rw [splitAtEach]
  split
  next found =>
    rw [behind] at found
    cases found
  next other rest found =>
    rw [behind] at found
    cases found
    rw [front]

@[simp] theorem lines_nil : lines [] = [] := by
  simp [lines, splitAtEach_of_notMem]

theorem lines_of_notMem {row : List Char} (single : '\n' ∉ row) (nonempty : row ≠ []) :
    lines row = [row] := by
  simp [lines, splitAtEach_of_notMem single, nonempty]

/-- A line feed ends a line, and the text behind it is split on its own. -/
theorem lines_append_feed {row : List Char} (single : '\n' ∉ row) (text : List Char) :
    lines (row ++ '\n' :: text) = dropReturn row :: lines text := by
  have pieces := splitAtEach_ne_nil '\n' text
  simp only [lines, splitAtEach_append single]
  rw [List.getLast?_cons_of_ne_nil pieces, List.dropLast_cons_of_ne_nil pieces, List.map_cons,
    List.cons_append]

theorem dropReturn_append_return (row : List Char) : dropReturn (row ++ ['\r']) = row := by
  simp [dropReturn]

theorem dropReturn_of_bare {row : List Char} (bare : row.getLast? ≠ some '\r') :
    dropReturn row = row :=
  if_neg bare

theorem dropReturn_cases (row : List Char) :
    dropReturn row = row ∨ row = dropReturn row ++ ['\r'] := by
  by_cases last : row.getLast? = some '\r'
  · right
    obtain ⟨front, rfl⟩ := List.getLast?_eq_some_iff.mp last
    rw [dropReturn_append_return]
  · exact Or.inl (dropReturn_of_bare last)

/-- What a line with its ending is split into; only a line feed lets a carriage return in front of
it be taken for a part of the ending. -/
theorem lines_append_ending {row : List Char} (single : '\n' ∉ row) (ending : LineEnding)
    (text : List Char) :
    ∃ read, (read = row ∨ read = dropReturn row) ∧
      (row.getLast? ≠ some '\r' ∨ ending = .returnFeed → read = row) ∧
      lines (row ++ ending.chars ++ text) = read :: lines text := by
  cases ending with
  | feed =>
    refine ⟨dropReturn row, Or.inr rfl, ?_, ?_⟩
    · rintro (bare | other)
      · exact dropReturn_of_bare bare
      · cases other
    · rw [LineEnding.chars, List.append_assoc, List.singleton_append, lines_append_feed single]
  | returnFeed =>
    -- the return of the ending is dropped, and one in front of it belongs to the row
    have longer : '\n' ∉ row ++ ['\r'] := by simpa using single
    refine ⟨row, Or.inl rfl, fun _ => rfl, ?_⟩
    have shape : row ++ LineEnding.returnFeed.chars ++ text = (row ++ ['\r']) ++ '\n' :: text := by
      simp [LineEnding.chars]
    rw [shape, lines_append_feed longer, dropReturn_append_return]

/-- Every text is made of the lines it is split into. -/
theorem hasRows_lines (text : List Char) : HasRows text (lines text) := by
  induction length : text.length using Nat.strongRecOn generalizing text with
  | ind count ih =>
    by_cases more : '\n' ∈ text
    · -- the text is taken apart at its first line feed
      obtain ⟨row, rest, rfl, single⟩ := List.eq_append_cons_of_mem more
      have later : HasRows rest (lines rest) := by
        refine ih rest.length ?_ rest rfl
        simp only [← length, List.length_append, List.length_cons]
        omega
      rw [lines_append_feed single]
      obtain same | returned := dropReturn_cases row
      · rw [same]
        have bare : row.getLast? ≠ some '\r' := by
          intro last
          obtain ⟨front, rfl⟩ := List.getLast?_eq_some_iff.mp last
          simp [dropReturn] at same
        simpa [LineEnding.chars] using HasRows.ended .feed single (fun _ => bare) later
      · generalize dropReturn row = front at returned
        subst returned
        have inner : '\n' ∉ front := fun member => single (List.mem_append_left _ member)
        simpa [LineEnding.chars] using
          HasRows.ended .returnFeed inner (fun other => nomatch other) later
    · by_cases empty : text = []
      · subst empty
        rw [lines_nil]
        exact .nil
      · rw [lines_of_notMem more empty]
        exact .last more empty

/-- A text is made of certain rows exactly if it is split into them. -/
theorem hasRows_iff {text : List Char} {rows : List (List Char)} :
    HasRows text rows ↔ lines text = rows := by
  constructor
  · intro made
    induction made with
    | nil => exact lines_nil
    | last single nonempty => exact lines_of_notMem single nonempty
    | @ended row text rows ending single bare _ ih =>
      obtain ⟨read, -, whole, split⟩ := lines_append_ending single ending text
      have same : read = row := whole (by cases ending <;> simp_all)
      rw [split, same, ih]
  · rintro rfl
    exact hasRows_lines text

/-! ### Putting texts together -/

theorem lines_append {before : List Char} (ends : EndsRow before) (text : List Char) :
    lines (before ++ text) = lines before ++ lines text := by
  have made := hasRows_lines before
  revert made
  generalize lines before = rows
  intro made
  induction made with
  | nil => rfl
  | @last row single nonempty =>
    -- a row without an ending ends no text that ends its row
    obtain empty | feed := ends
    · exact absurd empty nonempty
    · exact absurd (List.mem_of_getLast? feed) single
  | @ended row rest rows ending single bare _ ih =>
    obtain ⟨read, -, whole, split⟩ := lines_append_ending single ending (rest ++ text)
    have same : read = row := whole (by cases ending <;> simp_all)
    have later : EndsRow rest := by
      by_cases empty : rest = []
      · exact Or.inl empty
      · right
        obtain nothing | feed := ends
        · simp [empty] at nothing
        · rw [List.getLast?_append, List.getLast?_eq_some_getLast empty] at feed
          rw [List.getLast?_eq_some_getLast empty]
          exact feed
    rw [List.append_assoc _ rest text, split, same, ih later, List.cons_append]

/-- A text is complete lines and the beginning of another one. -/
theorem exists_unfinished (text : List Char) :
    ∃ before row, text = before ++ row ∧ EndsRow before ∧ '\n' ∉ row := by
  induction text with
  | nil => exact ⟨[], [], rfl, Or.inl rfl, List.not_mem_nil⟩
  | cons c rest ih =>
    obtain ⟨before, row, rfl, ends, single⟩ := ih
    -- in front of an unfinished row alone, a character may be what completes the first row
    obtain rfl | feed := ends
    · by_cases here : c = '\n'
      · exact ⟨[c], row, rfl, Or.inr (by simp [here]), single⟩
      · exact ⟨[], c :: row, rfl, Or.inl rfl, by simp [Ne.symm here, single]⟩
    · have nonempty : before ≠ [] := by
        rintro rfl
        cases feed
      exact ⟨c :: before, row, rfl, Or.inr (by rw [List.getLast?_cons_of_ne_nil nonempty, feed]),
        single⟩

end CubePatch
