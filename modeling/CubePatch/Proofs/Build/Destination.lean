import CubePatch.Build.Destination
import CubePatch.Proofs.File.Tree
import CubePatch.Proofs.Text.Lines

/-!
Where the patched image goes.

A name put behind a path is one component more, however the path ends: with a slash, with a dot, or
with nothing at all. In a file tree it is one step more from where the path leads.

## Main result

`destination_exact`: the destination is the path that was given, or leads to a file with the name of
the image in the directory that was given or the default one.
-/
namespace CubePatch

/-! ### Splitting -/

/-- A separator splits a text, whatever stands in front of it. -/
theorem splitAtEach_append_cons (separator : Char) (front text : List Char) :
    splitAtEach separator (front ++ separator :: text) =
      splitAtEach separator front ++ splitAtEach separator text := by
  by_cases split : separator ∈ front
  · obtain ⟨row, rest, parts, single⟩ := List.eq_append_cons_of_mem split
    have shorter : rest.length < front.length := by
      rw [parts, List.length_append, List.length_cons]
      omega
    rw [parts, List.append_assoc, List.cons_append, splitAtEach_append single,
      splitAtEach_append single, splitAtEach_append_cons separator rest text, List.cons_append]
  · rw [splitAtEach_append split, splitAtEach_of_notMem split, List.singleton_append]
termination_by front.length

theorem notMem_of_mem_splitAtEach {separator : Char} {text piece : List Char}
    (member : piece ∈ splitAtEach separator text) : separator ∉ piece := by
  by_cases split : separator ∈ text
  · obtain ⟨row, rest, parts, single⟩ := List.eq_append_cons_of_mem split
    have shorter : rest.length < text.length := by
      rw [parts, List.length_append, List.length_cons]
      omega
    rw [parts, splitAtEach_append single] at member
    obtain rfl | later := List.mem_cons.mp member
    · exact single
    · exact notMem_of_mem_splitAtEach later
  · rw [splitAtEach_of_notMem split] at member
    rwa [List.mem_singleton.mp member]
termination_by text.length

/-! ### Names -/

/-- A piece of a path that is a component with this name. -/
structure IsName (name : String) : Prop where
  nonempty : name ≠ ""
  not_current : name ≠ "."
  not_parent : name ≠ ".."
  slashless : '/' ∉ name.toList

theorem isName_defaultImageName : IsName defaultImageName := by
  constructor <;> decide

namespace Path

theorem laterComponents_append (front back : List String) :
    laterComponents (front ++ back) = laterComponents front ++ laterComponents back :=
  List.filterMap_append

theorem laterComponents_singleton {name : String} (names : IsName name) :
    laterComponents [name] = [.named name] := by
  have something : ¬ (name = "" ∨ name = ".") := not_or.mpr ⟨names.nonempty, names.not_current⟩
  rw [laterComponents, List.filterMap_cons, if_neg something, if_neg names.not_parent,
    List.filterMap_nil]

/-- The components of some pieces from the start of a path on. -/
def leadingComponents (absolute : Bool) (pieces : List String) : List PathComponent :=
  if absolute then .root :: laterComponents pieces
  else
    match pieces with
    | "." :: rest => .current :: laterComponents rest
    | pieces => laterComponents pieces

theorem components_eq (path : Path) :
    path.components = leadingComponents path.isAbsolute path.pieces := rfl

theorem leadingComponents_absolute (pieces : List String) :
    leadingComponents true pieces = .root :: laterComponents pieces :=
  if_pos rfl

theorem leadingComponents_relative (first : String) (rest : List String) :
    leadingComponents false (first :: rest) =
      if first = "." then .current :: laterComponents rest
      else laterComponents (first :: rest) := by
  unfold leadingComponents
  rw [if_neg Bool.false_ne_true]
  split
  next more same =>
    obtain ⟨rfl, rfl⟩ := List.cons.inj same
    rw [if_pos rfl]
  next other =>
    rw [if_neg]
    rintro rfl
    exact other rest rfl

/-- What stands behind the first piece counts as it would anywhere. -/
theorem leadingComponents_append (absolute : Bool) {front : List String} (some_front : front ≠ [])
    (back : List String) :
    leadingComponents absolute (front ++ back) =
      leadingComponents absolute front ++ laterComponents back := by
  cases absolute with
  | true =>
    rw [leadingComponents_absolute, leadingComponents_absolute, laterComponents_append,
      List.cons_append]
  | false =>
    obtain ⟨first, rest, rfl⟩ := List.exists_cons_of_ne_nil some_front
    rw [List.cons_append, leadingComponents_relative, leadingComponents_relative]
    split
    · rw [laterComponents_append, List.cons_append]
    · rw [← List.cons_append, laterComponents_append]

theorem isName_of_fileName? {path : Path} {name : String} (named : path.fileName? = some name) :
    IsName name := by
  have last : path.components.getLast? = some (.named name) := by
    unfold fileName? at named
    split at named
    next found =>
      cases named
      exact found
    · cases named
  have component := List.mem_of_getLast? last
  have later : PathComponent.named name ∈ laterComponents path.pieces := by
    rw [components_eq] at component
    unfold leadingComponents at component
    split at component
    · exact (List.mem_cons.mp component).resolve_left nofun
    · split at component
      next rest found =>
        rw [found]
        exact (List.mem_cons.mp component).resolve_left nofun
      next => exact component
  obtain ⟨piece, member, kept⟩ := List.mem_filterMap.mp later
  split at kept
  · cases kept
  next something =>
    split at kept
    · cases kept
    next not_parent =>
      cases kept
      obtain ⟨nonempty, not_current⟩ := not_or.mp something
      obtain ⟨text, found, rfl⟩ := List.mem_map.mp member
      refine ⟨nonempty, not_current, not_parent, ?_⟩
      rw [String.toList_ofList]
      exact notMem_of_mem_splitAtEach found

/-! ### A name behind a path -/

theorem pieces_of_slashless {name : String} (slashless : '/' ∉ name.toList) :
    pieces ⟨name⟩ = [name] := by
  rw [pieces, splitAtEach_of_notMem slashless, List.map_singleton, String.ofList_toList]

theorem pieces_append_slash (front name : String) :
    pieces ⟨front ++ "/" ++ name⟩ = pieces ⟨front⟩ ++ pieces ⟨name⟩ := by
  have text : (front ++ "/" ++ name).toList = front.toList ++ '/' :: name.toList := by
    rw [String.toList_append, String.toList_append, List.append_assoc]
    rfl
  rw [pieces, pieces, pieces, text, splitAtEach_append_cons, List.map_append]

/-- A name behind a path is one piece more, in place of the empty piece behind a last slash. -/
theorem exists_pieces_join (directory : Path) {name : String} (names : IsName name) :
    ∃ front, (directory.join name).pieces = front ++ [name] ∧
      (directory.pieces = front ∨ directory.pieces = front ++ [""]) := by
  have alone := pieces_of_slashless names.slashless
  obtain ⟨text⟩ := directory
  unfold join
  dsimp only
  by_cases empty : text = ""
  · subst empty
    rw [if_pos (Or.inl rfl), String.empty_append, alone]
    exact ⟨[], rfl, Or.inr (pieces_of_slashless List.not_mem_nil)⟩
  by_cases ended : text.toList.getLast? = some '/'
  · obtain ⟨front, split⟩ := List.getLast?_eq_some_iff.mp ended
    obtain rfl : text = String.ofList front ++ "/" := by
      rw [← String.toList_inj, split, String.toList_append, String.toList_ofList]
      rfl
    rw [if_pos (Or.inr ended), pieces_append_slash, alone]
    have slash := pieces_append_slash (String.ofList front) ""
    have blank : pieces ⟨""⟩ = [""] := pieces_of_slashless List.not_mem_nil
    rw [String.append_empty, blank] at slash
    exact ⟨pieces ⟨String.ofList front⟩, rfl, Or.inr slash⟩
  · rw [if_neg (not_or.mpr ⟨empty, ended⟩), pieces_append_slash, alone]
    exact ⟨_, rfl, Or.inl rfl⟩

theorem isAbsolute_join (directory : Path) {name : String} (names : IsName name) :
    (directory.join name).isAbsolute = directory.isAbsolute := by
  obtain ⟨text⟩ := directory
  by_cases empty : text = ""
  · subst empty
    have relative : name.toList.head? ≠ some '/' := fun first =>
      names.slashless (List.mem_of_head? first)
    rw [join, if_pos (Or.inl rfl), String.empty_append]
    exact decide_eq_false relative
  · -- the first character is that of the directory
    have first (more : String) : (text ++ more).toList.head? = text.toList.head? := by
      have nonempty : text.toList ≠ [] := fun none => empty (String.toList_eq_nil_iff.mp none)
      obtain ⟨first, rest, chars⟩ := List.exists_cons_of_ne_nil nonempty
      rw [String.toList_append, chars]
      rfl
    unfold join isAbsolute
    split
    · rw [first]
    · rw [String.append_assoc, first]

/-- A name behind a path is one component more. -/
theorem components_join (directory : Path) {name : String} (names : IsName name) :
    (directory.join name).components = directory.components ++ [.named name] := by
  obtain ⟨front, joined, ends⟩ := directory.exists_pieces_join names
  have nothing : laterComponents [""] = [] := rfl
  rw [components_eq, components_eq, directory.isAbsolute_join names, joined]
  by_cases empty : front = []
  · subst empty
    -- there is always a piece, here the empty one in front of the root or of nothing
    have blank : directory.pieces = [""] := by
      refine ends.resolve_left fun none => splitAtEach_ne_nil _ _ (List.map_eq_nil_iff.mp none)
    rw [blank, List.nil_append]
    cases directory.isAbsolute with
    | true =>
      rw [leadingComponents_absolute, leadingComponents_absolute, nothing,
        laterComponents_singleton names]
      rfl
    | false =>
      rw [leadingComponents_relative, leadingComponents_relative, if_neg names.not_current,
        if_neg (by decide), nothing, laterComponents_singleton names]
      rfl
  · rw [leadingComponents_append _ empty, laterComponents_singleton names]
    obtain same | slash := ends
    · rw [same]
    · rw [slash, leadingComponents_append _ empty, nothing, List.append_nil]

end Path

/-! ### Destinations in a file tree -/

namespace FileTree

variable {tree : FileTree} {here location : Location} {directory : Path} {name : String}

/-- Every step starts from a directory, and a name leads into it. -/
theorem enter_name (names : IsName name) (entered : tree.enter here name = .ok location) :
    tree.entry? here = some .directory ∧ location = here ++ [name] := by
  unfold enter at entered
  split at entered
  · cases entered
  · cases entered
  next stored =>
    rw [if_neg (not_or.mpr ⟨names.nonempty, names.not_current⟩), if_neg names.not_parent]
      at entered
    split at entered <;> cases entered
    exact ⟨stored, rfl⟩

theorem enter_empty (stored : tree.entry? here = some .directory) :
    tree.enter here "" = .ok here := by
  rw [enter, stored]
  exact if_pos (Or.inl rfl)

/-- A name behind a path leads one step further than the path. -/
theorem locate_join (names : IsName name)
    (located : tree.locate (directory.join name) = .ok location) :
    ∃ here, tree.follow (tree.startOf directory) directory.pieces = .ok here ∧
      location = here ++ [name] := by
  obtain ⟨front, joined, ends⟩ := directory.exists_pieces_join names
  have start : tree.startOf (directory.join name) = tree.startOf directory := by
    rw [startOf, startOf, directory.isAbsolute_join names]
  unfold locate at located
  split at located
  · cases located
  rw [start, joined, follow_append] at located
  cases reached : tree.follow (tree.startOf directory) front with
  | error fault =>
    rw [reached] at located
    cases located
  | ok here =>
    rw [reached] at located
    obtain ⟨stored, rfl⟩ := enter_name names located
    refine ⟨here, ?_, rfl⟩
    obtain same | slash := ends
    · rw [same, reached]
    · rw [slash, follow_append, reached]
      exact enter_empty stored

end FileTree

/-- A destination with an extension is the file itself. Any other leads to a file in it, or in the
default directory if there is none, with the name of the image or the default name if the path of
the image ends with no name. -/
theorem destination_exact (image : Path) (given : Option Path) :
    (∀ file, given = some file → file.extension?.isSome → destination image given = file) ∧
    ((∀ file, given = some file → file.extension? = none) →
      ∃ name, IsName name ∧
        (image.fileName? = some name ∨ image.fileName? = none ∧ name = defaultImageName) ∧
        (destination image given).components =
          (given.getD defaultDirectory).components ++ [.named name] ∧
        ∀ (tree : FileTree) location, tree.locate (destination image given) = .ok location →
          ∃ here, tree.follow (tree.startOf (given.getD defaultDirectory))
            (given.getD defaultDirectory).pieces = .ok here ∧ location = here ++ [name]) := by
  constructor
  · rintro file rfl extended
    exact if_pos extended
  · intro plain
    have joined : destination image given =
        (given.getD defaultDirectory).join (image.fileName?.getD defaultImageName) := by
      cases given with
      | none => rfl
      | some directory =>
        refine if_neg ?_
        rw [plain directory rfl]
        exact Bool.false_ne_true
    have names : IsName (image.fileName?.getD defaultImageName) := by
      cases named : image.fileName? with
      | none => exact isName_defaultImageName
      | some name => exact Path.isName_of_fileName? named
    refine ⟨_, names, ?_, ?_, fun tree location => ?_⟩
    · cases image.fileName? with
      | none => exact Or.inr ⟨rfl, rfl⟩
      | some name => exact Or.inl rfl
    · rw [joined, Path.components_join _ names]
    · rw [joined]
      exact FileTree.locate_join names

end CubePatch
