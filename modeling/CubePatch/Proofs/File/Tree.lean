import CubePatch.File.Tree

/-!
What the changes of a file tree that writing a file is made of leave of the tree.

Making a directory needs a place that is free, and moving a file in needs a place that is no
directory, so directories that are there stay and paths keep leading where they led. A draft takes a
place that is free. While it is there the tree has that one file more, and the draft is gone when it
was moved or removed.

## Main results

`IsDrafted.discard` and `IsDrafted.move`: a draft that is removed leaves the tree as it was, and a
file that a draft is moved to is the only one that changed.
-/
namespace CubePatch

namespace FileTree

/-! ### Stored entries -/

theorem root_isDirectory (tree : FileTree) : tree.entry? [] = some .directory := rfl

theorem lookup_filter_of_ne {entries : List (Location × FileEntry)} {location other : Location}
    (apart : other ≠ location) :
    (entries.filter fun entry => entry.1 ≠ location).lookup other = entries.lookup other := by
  induction entries with
  | nil => rfl
  | cons first rest ih =>
    obtain ⟨place, entry⟩ := first
    by_cases taken : place = location
    · subst taken
      rw [List.filter_cons_of_neg (by simp), ih, List.lookup_cons, beq_false_of_ne apart]
    · rw [List.filter_cons_of_pos (by simpa using taken), List.lookup_cons, List.lookup_cons, ih]

theorem store_entry {location : Location} (named : location ≠ []) (tree : FileTree)
    (entry : FileEntry) (other : Location) :
    entry? (tree.store location entry) other =
      if other = location then some entry else tree.entry? other := by
  unfold entry? store
  by_cases same : other = location
  · subst same
    rw [if_neg (by simpa using named), if_pos rfl, List.lookup_cons_self]
  · rw [if_neg same, List.lookup_cons, beq_false_of_ne same]
    simp only [lookup_filter_of_ne same]

theorem erase_entry {location : Location} (named : location ≠ []) (tree : FileTree)
    (other : Location) :
    entry? (tree.erase location) other = if other = location then none else tree.entry? other := by
  unfold entry? erase
  by_cases same : other = location
  · subst same
    rw [if_neg (by simpa using named), if_pos rfl, List.lookup_eq_none_iff]
    intro entry member
    have kept := (List.mem_filter.mp member).2
    simp only [ne_eq, decide_not, Bool.not_eq_true', decide_eq_false_iff_not] at kept
    simpa using Ne.symm kept
  · rw [if_neg same]
    simp only [lookup_filter_of_ne same]

theorem ne_nil_of_free {tree : FileTree} {location : Location}
    (free : tree.entry? location ≠ some .directory) : location ≠ [] := by
  rintro rfl
  exact free (root_isDirectory tree)

/-- What is stored where no directory is leaves the directories. -/
theorem store_keeps_directory {tree : FileTree} {location : Location}
    (free : tree.entry? location ≠ some .directory) (entry : FileEntry) {place : Location}
    (directory : tree.entry? place = some .directory) :
    entry? (tree.store location entry) place = some .directory := by
  rw [store_entry (ne_nil_of_free free), if_neg, directory]
  rintro rfl
  exact free directory

/-! ### Paths -/

section Paths

variable {tree after : FileTree}
  (keeps : ∀ location, tree.entry? location = some .directory →
    after.entry? location = some .directory)

include keeps

/-- All that a step needs is the directory it starts from. -/
theorem enter_mono {here next : Location} {piece : String}
    (entered : tree.enter here piece = .ok next) : after.enter here piece = .ok next := by
  unfold enter at entered ⊢
  split at entered
  · cases entered
  · cases entered
  next stored => rwa [keeps here stored]

theorem follow_mono {start location : Location} {pieces : List String}
    (followed : tree.follow start pieces = .ok location) :
    after.follow start pieces = .ok location := by
  induction pieces generalizing start with
  | nil => exact followed
  | cons piece rest ih =>
    unfold follow at followed ⊢
    rw [List.foldlM_cons] at followed ⊢
    cases entered : tree.enter start piece with
    | error fault =>
      rw [entered] at followed
      cases followed
    | ok next =>
      rw [entered] at followed
      rw [enter_mono keeps entered]
      exact ih followed

theorem locate_mono (same : after.workingDirectory = tree.workingDirectory) {path : Path}
    {location : Location} (located : tree.locate path = .ok location) :
    after.locate path = .ok location := by
  have start : after.startOf path = tree.startOf path := by rw [startOf, startOf, same]
  unfold locate at located ⊢
  split at located
  · cases located
  next whole =>
    rw [start]
    exact follow_mono keeps located

end Paths

/-! ### Directories that are added -/

/-- A tree with some more directories, to each of which one of the given paths leads. -/
structure AddsDirectories (tree : FileTree) (paths : List Path) (after : FileTree) : Prop where
  workingDirectory : after.workingDirectory = tree.workingDirectory
  entry : ∀ location, after.entry? location = tree.entry? location ∨
    tree.entry? location = none ∧ after.entry? location = some .directory ∧
      ∃ path ∈ paths, after.locate path = .ok location

namespace AddsDirectories

variable {tree after last : FileTree} {paths more : List Path}

theorem refl (tree : FileTree) (paths : List Path) : tree.AddsDirectories paths tree :=
  ⟨rfl, fun _ => Or.inl rfl⟩

theorem keeps (adds : tree.AddsDirectories paths after) {location : Location}
    {entry : FileEntry} (stored : tree.entry? location = some entry) :
    after.entry? location = some entry := by
  obtain same | ⟨free, -⟩ := adds.entry location
  · rw [same, stored]
  · cases stored.symm.trans free

/-- The files are what they were. -/
theorem file_iff (adds : tree.AddsDirectories paths after) (location : Location)
    (content : Bytes) :
    after.entry? location = some (.file content) ↔ tree.entry? location = some (.file content) := by
  refine ⟨fun stored => ?_, adds.keeps⟩
  obtain same | ⟨-, added, -⟩ := adds.entry location
  · rw [← same, stored]
  · cases stored.symm.trans added

theorem locate (adds : tree.AddsDirectories paths after) {path : Path} {location : Location}
    (located : tree.locate path = .ok location) : after.locate path = .ok location :=
  locate_mono (fun _ => adds.keeps) adds.workingDirectory located

theorem trans (first : tree.AddsDirectories paths after)
    (second : after.AddsDirectories paths last) : tree.AddsDirectories paths last := by
  refine ⟨second.workingDirectory.trans first.workingDirectory, fun location => ?_⟩
  obtain same | ⟨free, added, path, member, located⟩ := first.entry location
  · obtain again | ⟨free, added⟩ := second.entry location
    · exact Or.inl (again.trans same)
    · exact Or.inr ⟨same ▸ free, added⟩
  · exact Or.inr ⟨free, second.keeps added, path, member, second.locate located⟩

theorem mono (adds : tree.AddsDirectories paths after) (fewer : paths ⊆ more) :
    tree.AddsDirectories more after := by
  refine ⟨adds.workingDirectory, fun location => ?_⟩
  obtain same | ⟨free, added, path, member, located⟩ := adds.entry location
  · exact Or.inl same
  · exact Or.inr ⟨free, added, path, fewer member, located⟩

end AddsDirectories

/-! ### Making directories -/

/-- A directory is made where nothing is. -/
theorem addsDirectories_of_makeDirectory {tree after : FileTree} {path : Path}
    (made : makeDirectory path tree = .ok () after) : tree.AddsDirectories [path] after := by
  unfold makeDirectory at made
  split at made
  · cases made
  next location located =>
    split at made
    · cases made
    next stored =>
      cases made
      have free : tree.entry? location ≠ some .directory := by
        rw [stored]
        exact nofun
      refine ⟨rfl, fun other => ?_⟩
      rw [store_entry (ne_nil_of_free free)]
      by_cases same : other = location
      · subst same
        refine Or.inr ⟨stored, if_pos rfl, path, List.mem_singleton_self path, ?_⟩
        exact locate_mono (fun _ => store_keeps_directory free .directory) rfl located
      · exact Or.inl (if_neg same)

/-! ### The place of a file -/

/-- The last piece of a path is entered where the others lead. -/
theorem follow_append (tree : FileTree) (start : Location) (pieces : List String)
    (last : String) :
    tree.follow start (pieces ++ [last]) =
      (tree.follow start pieces).bind fun here => tree.enter here last := by
  unfold follow
  rw [List.foldlM_append]
  refine congrArg (Except.bind _) (funext fun here => ?_)
  rw [List.foldlM_cons]
  exact bind_pure (tree.enter here last)

/-- A file has a place where its path leads, unless a directory is there. -/
theorem placeFor_eq_ok {tree : FileTree} {path : Path} {location : Location}
    (placed : tree.placeFor path = .ok location) :
    tree.locate path = .ok location ∧ tree.entry? location ≠ some .directory := by
  unfold placeFor at placed
  dsimp only at placed
  split at placed
  · cases placed
  · cases placed
  next last above whole named =>
    split at placed
    · cases placed
    next directory followed =>
      split at placed
      · cases placed
      next found entered =>
        split at placed
        · cases placed
        split at placed
        · cases placed
        next unended =>
          split at placed
          · cases placed
          next free =>
            cases placed
            refine ⟨?_, free⟩
            -- no slash ends the path, so it ends with the piece that was entered last
            have pieces : path.pieces = above.reverse ++ [last] := by
              rw [← List.reverse_reverse path.pieces, ← Decidable.not_not.mp unended, named,
                List.reverse_cons]
            rw [locate, whole, pieces]
            dsimp only
            rw [follow_append, followed]
            exact entered

/-! ### Drafts -/

theorem findFile_of_locate {tree : FileTree} {path : Path} {location : Location} {content : Bytes}
    (located : tree.locate path = .ok location)
    (stored : tree.entry? location = some (.file content)) :
    tree.findFile path = .ok (location, content) := by
  rw [findFile, located]
  dsimp only
  rw [stored]

/-- A tree with one file more, at a place that was free. -/
structure IsDrafted (tree : FileTree) (draft : Path) (location : Location) (content : Bytes)
    (after : FileTree) : Prop where
  free : tree.entry? location = none
  workingDirectory : after.workingDirectory = tree.workingDirectory
  entry : ∀ other, after.entry? other =
    if other = location then some (.file content) else tree.entry? other
  located : after.locate draft = .ok location

/-- A tree in which one file was put where a path leads. Nothing else changed, but for directories
that were added above the file. -/
structure Replaces (tree : FileTree) (path : Path) (content : Bytes) (location : Location)
    (after : FileTree) : Prop where
  workingDirectory : after.workingDirectory = tree.workingDirectory
  located : after.locate path = .ok location
  stored : after.entry? location = some (.file content)
  /-- There was a file or nothing. -/
  replaced : tree.entry? location ≠ some .directory
  others : ∀ other, other ≠ location → after.entry? other = tree.entry? other ∨
    tree.entry? other = none ∧ after.entry? other = some .directory ∧
      ∃ above ∈ path.directories, after.locate above = .ok other

/-- An empty draft where nothing is. -/
theorem isDrafted_of_free {tree : FileTree} {draft : Path} {location : Location}
    (located : tree.locate draft = .ok location) (free : tree.entry? location = none) :
    tree.IsDrafted draft location [] (tree.store location (.file [])) := by
  have no_directory : tree.entry? location ≠ some .directory := by
    rw [free]
    exact nofun
  refine ⟨free, rfl, store_entry (ne_nil_of_free no_directory) tree _, ?_⟩
  exact locate_mono (fun _ => store_keeps_directory no_directory _) rfl located

namespace IsDrafted

variable {tree after last : FileTree} {draft path : Path} {location : Location}
  {content other : Bytes}

theorem stored (drafted : tree.IsDrafted draft location content after) :
    after.entry? location = some (.file content) := by
  rw [drafted.entry, if_pos rfl]

theorem no_directory (drafted : tree.IsDrafted draft location content after) :
    after.entry? location ≠ some .directory := by
  rw [drafted.stored]
  exact nofun

theorem findFile (drafted : tree.IsDrafted draft location content after) :
    after.findFile draft = .ok (location, content) :=
  findFile_of_locate drafted.located drafted.stored

/-- Without the draft the tree is what it was. -/
theorem erase_entry (drafted : tree.IsDrafted draft location content after) (place : Location) :
    entry? (after.erase location) place = tree.entry? place := by
  rw [FileTree.erase_entry (ne_nil_of_free drafted.no_directory), drafted.entry]
  by_cases here : place = location
  · rw [if_pos here, here, drafted.free]
  · rw [if_neg here, if_neg here]

theorem fill (drafted : tree.IsDrafted draft location content after)
    (filled : fillDraft draft other after = .ok () last) :
    tree.IsDrafted draft location other last := by
  rw [fillDraft, drafted.findFile] at filled
  cases filled
  have named := ne_nil_of_free drafted.no_directory
  refine ⟨drafted.free, drafted.workingDirectory, fun place => ?_, ?_⟩
  · rw [store_entry named, drafted.entry]
    by_cases here : place = location
    · rw [if_pos here, if_pos here]
    · rw [if_neg here, if_neg here, if_neg here]
  · exact locate_mono (fun _ => store_keeps_directory drafted.no_directory _) rfl drafted.located

/-- A draft that is removed leaves nothing behind. -/
theorem discard (drafted : tree.IsDrafted draft location content after) :
    tree.AddsDirectories [] (after.discardDraft draft) := by
  rw [discardDraft, drafted.findFile]
  exact ⟨drafted.workingDirectory, fun place => Or.inl (drafted.erase_entry place)⟩

/-- A draft is moved to where a path leads, and is then no longer where it was. -/
theorem move (drafted : tree.IsDrafted draft location content after)
    (moved : moveDraft draft path after = .ok () last) :
    ∃ place, tree.Replaces path content place last := by
  rw [moveDraft, drafted.findFile] at moved
  dsimp only at moved
  split at moved
  · cases moved
  next place placed =>
    cases moved
    obtain ⟨located, free⟩ := placeFor_eq_ok placed
    have entry := store_entry (ne_nil_of_free free) (after.erase location) (.file content)
    have replaced : tree.entry? place ≠ some .directory := by
      intro directory
      have kept := drafted.entry place
      by_cases here : place = location
      · rw [here, drafted.free] at directory
        cases directory
      · rw [if_neg here, directory] at kept
        exact free kept
    -- only the draft is gone, which was no directory
    have keeps (other : Location) (directory : after.entry? other = some .directory) :
        FileTree.entry? ((after.erase location).store place (.file content)) other =
          some .directory := by
      have here : other ≠ place := fun same => free (same ▸ directory)
      have apart : other ≠ location := fun same => drafted.no_directory (same ▸ directory)
      rw [entry, if_neg here, FileTree.erase_entry (ne_nil_of_free drafted.no_directory),
        if_neg apart, directory]
    refine ⟨place, drafted.workingDirectory, locate_mono keeps rfl located, ?_, replaced, ?_⟩
    · rw [entry, if_pos rfl]
    · intro other apart
      rw [entry, if_neg apart]
      exact Or.inl (drafted.erase_entry other)

end IsDrafted

/-- The file keeps its place if directories above it are added first. -/
theorem AddsDirectories.replaces {tree middle after : FileTree} {path : Path} {content : Bytes}
    {location : Location} (adds : tree.AddsDirectories path.directories middle)
    (replaces : middle.Replaces path content location after) :
    tree.Replaces path content location after := by
  have keeps (other : Location) (directory : middle.entry? other = some .directory) :
      after.entry? other = some .directory := by
    have apart : other ≠ location := fun same => replaces.replaced (same ▸ directory)
    obtain same | ⟨free, -⟩ := replaces.others other apart
    · rw [same, directory]
    · cases directory.symm.trans free
  have leads {above : Path} {place : Location} (led : middle.locate above = .ok place) :
      after.locate above = .ok place := locate_mono keeps replaces.workingDirectory led
  refine ⟨replaces.workingDirectory.trans adds.workingDirectory, replaces.located,
    replaces.stored, fun directory => replaces.replaced (adds.keeps directory), ?_⟩
  intro other apart
  obtain same | ⟨free, added, above, member, led⟩ := adds.entry other
  · obtain again | ⟨free, added⟩ := replaces.others other apart
    · exact Or.inl (again.trans same)
    · exact Or.inr ⟨same ▸ free, added⟩
  · exact Or.inr ⟨free, keeps other added, above, member, leads led⟩

end FileTree

end CubePatch
