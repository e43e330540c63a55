import CubePatch.Proofs.Build.Reading
import CubePatch.Proofs.Build.Stages
import CubePatch.Proofs.Code.Grammar

/-!
The codes of a directory.

The bare codes of the files are put one behind the other and read once. Where one file ends with its
last code, the next one goes on. A binary list is cut off where it is closed, but a text may hold a
line that closes a list, and that line then closes the list of the directory too.

## Main result

`codeListAt_directory`: if every file of codes in a directory builds alone or has no codes, the
directory builds, and its codes are those of the files up to the first one that closes the list.
-/
namespace CubePatch

/-! ### Parts of a code list -/

namespace CodeList

/-- A part of a code list: its codes, and behind them nothing, or a line that closes the list and
anything. -/
inductive IsPart : Bytes → List Code → Bool → Prop where
  | bare (codes : List Code) : IsPart (codes.flatMap Code.bytes) codes false
  | closed (codes : List Code) (closing : Line) (closes : closing.kind = .terminator) (rest : Bytes) :
    IsPart (codes.flatMap Code.bytes ++ (closing.bytes ++ rest)) codes true

theorem ofBody_eq (body : Bytes) : ofBody body = scan magic.length (body ++ terminator.bytes) := by
  rw [ofBody, frame, List.append_assoc, ofBytes_magic]

/-- Parts one behind the other are read as far as the first one that closes the list. -/
theorem exists_scan_flatMap (items : List α) {bytes : α → Bytes} {codes : α → List Code}
    {isLast : α → Bool} (parts : ∀ item ∈ items, IsPart (bytes item) (codes item) (isLast item))
    (offset : Nat) :
    ∃ list behind, scan offset (items.flatMap bytes ++ terminator.bytes) = .ok (list, behind) ∧
      list.codes = (items.take (items.findIdx isLast + 1)).flatMap codes := by
  induction items generalizing offset with
  | nil =>
    have closes : terminator.kind = .terminator := by decide
    exact ⟨ofCodes [], [], scan_codes offset [] closes [], rfl⟩
  | cons item rest ih =>
    obtain ⟨first, later⟩ := List.forall_mem_cons.mp parts
    rw [List.flatMap_cons, List.append_assoc, List.findIdx_cons]
    generalize bytes item = body at first
    cases last : isLast item with
    | true =>
      -- what the other parts hold stands behind the line that closes the list
      rw [last] at first
      cases first with
      | closed _ closing closes behind =>
        refine ⟨⟨codes item, closing, closes⟩,
          behind ++ (rest.flatMap bytes ++ terminator.bytes), ?_, ?_⟩
        · rw [List.append_assoc, List.append_assoc]
          exact scan_codes offset (codes item) closes _
        · rw [cond_true, Nat.zero_add, List.take_succ_cons, List.take_zero, List.flatMap_singleton]
    | false =>
      rw [last] at first
      cases first with
      | bare =>
        obtain ⟨list, behind, read, codes_eq⟩ :=
          ih later (offset + ((codes item).flatMap Code.bytes).length)
        refine ⟨{ list with codes := codes item ++ list.codes }, behind, ?_, ?_⟩
        · rw [scan_append, read]
          rfl
        · rw [codes_eq, cond_false, List.take_succ_cons, List.flatMap_cons]

theorem eight_dvd_flatMap {bytes : α → Bytes} {items : List α}
    (each : ∀ item ∈ items, 8 ∣ (bytes item).length) : 8 ∣ (items.flatMap bytes).length := by
  induction items with
  | nil => exact Nat.dvd_zero 8
  | cons item rest ih =>
    obtain ⟨first, later⟩ := List.forall_mem_cons.mp each
    rw [List.flatMap_cons, List.length_append]
    exact Nat.dvd_add first (ih later)

/-- Every code is made of whole lines. -/
theorem eight_dvd_body (list : CodeList) : 8 ∣ list.body.length := by
  refine @eight_dvd_flatMap _ Code.bytes list.codes fun code _ => ?_
  rw [code.length_bytes]
  unfold Line.codeLength Line.payloadLength CodeKind.payloadLength roundUp
  split <;> omega

/-- Whole lines that are read between a first and a last line are a part of a list. They hold a line
that closes it exactly if something is left behind that line. -/
theorem isPart_of_ofBody {body behind : Bytes} {list : CodeList} (whole : 8 ∣ body.length)
    (read : ofBody body = .ok (list, behind)) : IsPart body list.codes (decide (behind ≠ [])) := by
  have framed : list.body ++ list.closing.bytes ++ behind = body ++ terminator.bytes := by
    have spelled := (ofBytes_eq_ok_iff _ _ _).mp read
    rw [frame, bytes, List.append_assoc, List.append_assoc, List.append_assoc] at spelled
    rw [List.append_assoc]
    exact (List.append_cancel_left spelled).symm
  by_cases empty : behind = []
  · subst empty
    rw [List.append_nil] at framed
    obtain ⟨rfl, -⟩ := List.append_inj' framed rfl
    exact IsPart.bare list.codes
  · rw [decide_eq_true empty]
    obtain ⟨rest, rfl⟩ : ∃ rest, body = list.body ++ list.closing.bytes ++ rest := by
      obtain ⟨rest, split, -⟩ | ⟨more, same, cut⟩ := List.append_eq_append_iff.mp framed
      · exact ⟨rest, split⟩
      · -- all lengths are multiples of eight, so what is left is no shorter than the last line
        have codes := list.eight_dvd_body
        have some_left := List.length_pos_iff.mpr empty
        have lengths := congrArg List.length framed
        have short := congrArg List.length cut
        simp only [List.length_append, Line.length_bytes] at lengths short
        obtain rfl : more = [] := List.length_eq_zero_iff.mp (by omega)
        exact ⟨[], by rw [same, List.append_nil, List.append_nil]⟩
    rw [List.append_assoc]
    exact IsPart.closed list.codes list.closing list.closes rest

end CodeList

/-! ### Single files -/

/-- The bare codes of a file are whole lines. -/
theorem CodeFile.eight_dvd_body {selection : TextSelection} {file : CodeFile} {body : Bytes}
    (read : (file.body selection).outcome = .ok body) : 8 ∣ body.length := by
  unfold CodeFile.body at read
  split at read
  · cases read
  · cases read
  · obtain ⟨-, -, read⟩ := Logged.bind_eq_ok read
    cases read
    exact @CodeList.eight_dvd_flatMap _ Line.bytes _ fun _ _ => Nat.dvd_refl 8
  · obtain ⟨list, -, read⟩ := Logged.bind_eq_ok read
    cases read
    exact list.eight_dvd_body

/-- Whether there are codes is not looked at while a file is read. -/
theorem CodeFile.body_ne_empty {selection : TextSelection} {file : CodeFile} {fault : SourceError}
    (failed : (file.body selection).outcome = .error fault) (path : Path) : fault ≠ .empty path := by
  unfold CodeFile.body at failed
  split at failed
  · cases failed
    exact SourceError.noConfusion
  · cases failed
    exact SourceError.noConfusion
  · cases failed
  · obtain malformed | ⟨_, -, failed⟩ := Logged.bind_eq_error failed
    · obtain ⟨reason, -, rfl⟩ := Logged.mapError_eq_error malformed
      exact SourceError.noConfusion
    · cases failed

/-- Where all files of a directory were read, every one of them could be read. -/
theorem exists_body_of_bodyOfFiles {selection : TextSelection} {files : List CodeFile}
    {body : Bytes} (read : (bodyOfFiles selection files).outcome = .ok body) :
    ∀ file ∈ files, (∃ path, file = .unsupported path) ∨
      ∃ bytes, (file.body selection).outcome = .ok bytes := by
  induction files generalizing body with
  | nil => exact List.forall_mem_nil _
  | cons file files ih =>
    cases file with
    | unsupported path =>
      exact List.forall_mem_cons.mpr ⟨Or.inl ⟨path, rfl⟩, ih read⟩
    | content path format bytes =>
      obtain ⟨first, here, read⟩ := Logged.bind_eq_ok read
      obtain ⟨later, behind, -⟩ := Logged.bind_eq_ok read
      exact List.forall_mem_cons.mpr ⟨Or.inr ⟨first, here⟩, ih behind⟩

namespace FileTree

variable (tree : FileTree) (selection : TextSelection)

/-- What building the codes at a path comes to. -/
def codeListAt (path : Path) : Except SourceError CodeList :=
  ((readCodeSource system path tree).1.codeList selection).outcome

/-- The codes at a path, if they can be built. -/
def codesAt (path : Path) : List Code :=
  (tree.codeListAt selection path).toOption.elim [] CodeList.codes

/-- The bare codes of the file at a path, if it can be read. -/
def bodyAt (path : Path) : Bytes :=
  ((tree.codeFile path).body selection).outcome.toOption.getD []

/-- Whether the file at a path holds a line that closes a code list: reading its codes stops at that
line and leaves what is behind. -/
def closesListAt (path : Path) : Bool :=
  (CodeList.ofBody (tree.bodyAt selection path)).toOption.any fun found => decide (found.2 ≠ [])

/-- The paths of the files of codes in a directory. -/
def codePaths (directory : Path) : List Path :=
  (((tree.fileNames directory).toOption.getD []).map directory.join).filter fun path =>
    (CodeFormat.ofPath? path).isSome

/-- What comes of a source follows from the bare codes in it. -/
theorem outcome_codeList (source : CodeSource) :
    (source.codeList selection).outcome =
      (source.body selection).outcome.bind fun codes =>
        if codes = [] then .error (.empty source.path)
        else ((CodeList.ofBody codes).map (·.1)).mapError .codes := by
  unfold CodeSource.codeList
  rw [Logged.outcome_bind]
  congr 1
  funext codes
  by_cases empty : codes = []
  · rw [if_pos empty, if_pos (List.isEmpty_iff.mpr empty)]
    rfl
  · rw [if_neg empty, if_neg (empty ∘ List.isEmpty_iff.mp), Logged.outcome_bind,
      Logged.outcome_mapError, CodeList.readBody, CodeList.ofReading]
    cases CodeList.ofBody codes <;> rfl

theorem codeListAt_eq (path : Path) :
    tree.codeListAt selection path = ((tree.codeSource path).codeList selection).outcome := by
  rw [codeListAt, readCodeSource_system]

/-- A file that builds alone, or has no codes, can be read and is a part of a list. -/
theorem isPart_of_alone {path : Path} (single : tree.isDirectory path = false)
    (alone : (∃ list, tree.codeListAt selection path = .ok list) ∨
      tree.codeListAt selection path = .error (.empty path)) :
    ((tree.codeFile path).body selection).outcome = .ok (tree.bodyAt selection path) ∧
    CodeList.IsPart (tree.bodyAt selection path) (tree.codesAt selection path)
      (tree.closesListAt selection path) ∧
    ((∃ list, tree.codeListAt selection path = .ok list) → tree.bodyAt selection path ≠ []) := by
  have outcome := tree.codeListAt_eq selection path
  rw [codeSource, if_neg (Bool.not_eq_true _ ▸ single), outcome_codeList, CodeSource.body,
    CodeSource.path, path_codeFile] at outcome
  unfold codesAt closesListAt bodyAt
  cases read : ((tree.codeFile path).body selection).outcome with
  | error fault =>
    rw [read] at outcome
    rw [outcome] at alone
    obtain ⟨_, built⟩ | empty := alone
    · cases built
    · cases empty
      exact absurd rfl (CodeFile.body_ne_empty read path)
  | ok body =>
    rw [read] at outcome
    refine ⟨rfl, ?_⟩
    dsimp only [Except.bind, Except.toOption, Option.getD] at outcome ⊢
    by_cases empty : body = []
    · subst empty
      rw [if_pos rfl] at outcome
      have nothing : CodeList.ofBody [] = .ok (.ofCodes [], []) := CodeList.ofBody_codes []
      rw [outcome, nothing]
      exact ⟨.bare [], fun ⟨_, built⟩ => by cases built⟩
    · rw [if_neg empty] at outcome
      refine ⟨?_, fun _ => empty⟩
      cases scanned : CodeList.ofBody body with
      | error fault =>
        rw [scanned] at outcome
        rw [outcome] at alone
        obtain ⟨_, built⟩ | missing := alone
        · cases built
        · cases missing
      | ok found =>
        rw [scanned] at outcome
        rw [outcome]
        exact CodeList.isPart_of_ofBody (CodeFile.eight_dvd_body read) scanned

/-! ### All files of a directory -/

theorem not_isDirectory_of_isFile {tree : FileTree} {path : Path} (file : tree.isFile path = true) :
    tree.isDirectory path = false := by
  unfold isFile at file
  unfold isDirectory
  split at file
  next location located =>
    split at file
    next content stored =>
      rw [stored]
      rfl
    · cases file
  · cases file

theorem isFile_of_mem_codePaths {tree : FileTree} {directory path : Path}
    (member : path ∈ tree.codePaths directory) : tree.isFile path = true := by
  obtain ⟨name, named, rfl⟩ := List.mem_map.mp (List.mem_filter.mp member).1
  unfold fileNames at named
  split at named
  · cases named
  · exact (List.mem_filter.mp named).2

/-- Files in the order of their paths are the files of paths in that order. -/
theorem exists_sortFiles (paths : List Path) :
    ∃ sorted : List Path, sortFiles (paths.map tree.codeFile) = sorted.map tree.codeFile ∧
      sorted.Perm paths ∧ sorted.Pairwise fun first second => first.text ≤ second.text := by
  have perm : (sortFiles (paths.map tree.codeFile)).Perm (paths.map tree.codeFile) :=
    List.mergeSort_perm _ _
  refine ⟨(sortFiles (paths.map tree.codeFile)).map (·.path), ?_, ?_, ?_⟩
  · have own : ∀ file ∈ sortFiles (paths.map tree.codeFile), tree.codeFile file.path = file := by
      intro file member
      obtain ⟨path, -, rfl⟩ := List.mem_map.mp (perm.mem_iff.mp member)
      rw [path_codeFile]
    rw [List.map_map]
    exact ((List.map_congr_left own).trans (List.map_id' _)).symm
  · have same := perm.map CodeFile.path
    have own : CodeFile.path ∘ tree.codeFile = id := funext tree.path_codeFile
    rwa [List.map_map, own, List.map_id] at same
  · rw [List.pairwise_map]
    apply (List.pairwise_mergeSort _ _ _).imp
    · intro first second order
      exact String.not_lt.mp (of_decide_eq_false (Bool.not_eq_true' _ ▸ order))
    · intro first second third lower upper
      simp only [Bool.not_eq_true', decide_eq_false_iff_not, String.not_lt] at lower upper ⊢
      exact String.le_trans lower upper
    · intro first second
      simp only [Bool.or_eq_true, Bool.not_eq_true', decide_eq_false_iff_not, String.not_lt]
      exact String.le_total _ _

/-- Files of no known format are passed over, and the others are read. -/
theorem outcome_bodyOfFiles (paths : List Path)
    (read : ∀ path ∈ paths, (CodeFormat.ofPath? path).isSome = true →
      ((tree.codeFile path).body selection).outcome = .ok (tree.bodyAt selection path)) :
    (bodyOfFiles selection (paths.map tree.codeFile)).outcome =
      .ok ((paths.filter fun path => (CodeFormat.ofPath? path).isSome).flatMap
        (tree.bodyAt selection)) := by
  induction paths with
  | nil => rfl
  | cons path rest ih =>
    obtain ⟨first, later⟩ := List.forall_mem_cons.mp read
    have behind := ih later
    rw [List.map_cons]
    cases format : CodeFormat.ofPath? path with
    | none =>
      rw [List.filter_cons_of_neg (by simp [format]), ← behind]
      have unsupported : tree.codeFile path = .unsupported path := by rw [codeFile, format]
      rw [unsupported]
      rfl
    | some known =>
      have first := first (Option.isSome_of_eq_some format)
      have content : tree.codeFile path = .content path known (tree.read path) := by
        rw [codeFile, format]
      rw [List.filter_cons_of_pos (by simp [format]), List.flatMap_cons]
      rw [content] at first ⊢
      have step : bodyOfFiles selection (.content path known (tree.read path) ::
            rest.map tree.codeFile) = (do
          let first ← (CodeFile.content path known (tree.read path)).body selection
          let later ← bodyOfFiles selection (rest.map tree.codeFile)
          return first ++ later) := rfl
      rw [step, Logged.outcome_bind, first]
      dsimp only [Except.bind]
      rw [Logged.outcome_bind, behind]
      rfl

theorem exists_fileNames {tree : FileTree} {directory : Path}
    (inside : tree.isDirectory directory = true) :
    ∃ names, tree.fileNames directory = .ok names := by
  unfold isDirectory at inside
  unfold fileNames
  split at inside
  next location located => exact ⟨_, by rw [located]⟩
  · cases inside

/-- The bare codes of a directory are those of its files of codes in the order of their paths. -/
theorem outcome_body_directory {directory : Path} {paths : List Path}
    (inside : tree.isDirectory directory = true) (listed : paths.Perm (tree.codePaths directory))
    (ordered : paths.Pairwise fun first second => first.text ≤ second.text)
    (read : ∀ path ∈ paths,
      ((tree.codeFile path).body selection).outcome = .ok (tree.bodyAt selection path)) :
    ((tree.codeSource directory).body selection).outcome =
      .ok (paths.flatMap (tree.bodyAt selection)) := by
  obtain ⟨names, named⟩ := exists_fileNames inside
  have source : tree.codeSource directory =
      .directory directory (.ok ((names.map directory.join).map tree.codeFile)) := by
    rw [codeSource, if_pos inside, named, List.map_map]
    rfl
  obtain ⟨sorted, files, perm, sorted_ordered⟩ := tree.exists_sortFiles (names.map directory.join)
  -- there is only one way to put paths in order
  have same : (sorted.filter fun path => (CodeFormat.ofPath? path).isSome) = paths := by
    refine List.Perm.eq_of_pairwise ?_ (sorted_ordered.filter _) ordered ?_
    · rintro ⟨first⟩ ⟨second⟩ - - lower upper
      exact congrArg Path.mk (String.le_antisymm lower upper)
    · refine (perm.filter _).trans (listed.trans ?_).symm
      rw [codePaths, named]
      exact List.Perm.refl _
  rw [source, CodeSource.body, files, outcome_bodyOfFiles, same]
  intro path member known
  exact read path (same ▸ List.mem_filter.mpr ⟨member, known⟩)

section Directory

variable {tree : FileTree} {selection : TextSelection} {directory : Path} {paths : List Path}
  (inside : tree.isDirectory directory = true) (listed : paths.Perm (tree.codePaths directory))
  (ordered : paths.Pairwise fun first second => first.text ≤ second.text)
  (alone : ∀ path ∈ paths, (∃ list, tree.codeListAt selection path = .ok list) ∨
    tree.codeListAt selection path = .error (.empty path))
  (built : ∃ path ∈ paths, ∃ list, tree.codeListAt selection path = .ok list)

include inside listed ordered alone built

theorem exists_codeListAt_directory :
    ∃ list, tree.codeListAt selection directory = .ok list ∧
      list.codes = (paths.take (paths.findIdx (tree.closesListAt selection) + 1)).flatMap
        (tree.codesAt selection) := by
  have parts (path : Path) (member : path ∈ paths) :=
    have file := isFile_of_mem_codePaths (listed.mem_iff.mp member)
    tree.isPart_of_alone selection (not_isDirectory_of_isFile file) (alone path member)
  have body := tree.outcome_body_directory selection inside listed ordered
    fun path member => (parts path member).1
  have nonempty : paths.flatMap (tree.bodyAt selection) ≠ [] := by
    obtain ⟨path, member, builds⟩ := built
    intro empty
    exact (parts path member).2.2 builds (List.flatMap_eq_nil_iff.mp empty path member)
  obtain ⟨list, behind, scanned, codes_eq⟩ := CodeList.exists_scan_flatMap paths
    (fun path member => (parts path member).2.1) CodeList.magic.length
  refine ⟨list, ?_, codes_eq⟩
  rw [codeListAt_eq, outcome_codeList, body, Except.bind, if_neg nonempty, CodeList.ofBody_eq,
    scanned]
  rfl

/-- Building a directory whose files of codes build alone, or have no codes, succeeds if there are
codes at all. The codes are those of its files in the order of their paths, up to the first file that
holds a line that closes a list; what the files behind it hold is lost. -/
theorem codeListAt_directory :
    ∃ list, tree.codeListAt selection directory = .ok list ∧
      list.codes = (paths.take (paths.findIdx (tree.closesListAt selection) + 1)).flatMap
        (tree.codesAt selection) ∧
      (list.codes = paths.flatMap (tree.codesAt selection) ↔
        ∀ path ∈ paths.drop (paths.findIdx (tree.closesListAt selection) + 1),
          tree.codesAt selection path = []) := by
  obtain ⟨list, builds, codes_eq⟩ :=
    exists_codeListAt_directory inside listed ordered alone built
  refine ⟨list, builds, codes_eq, ?_⟩
  rw [codes_eq]
  generalize paths.findIdx (tree.closesListAt selection) + 1 = count
  have whole := congrArg (List.flatMap (tree.codesAt selection)) (List.take_append_drop count paths)
  rw [List.flatMap_append] at whole
  rw [← whole, List.self_eq_append_right, List.flatMap_eq_nil_iff]

end Directory

/-! ### A text with a closing line -/

def bytesOfText (text : String) : Bytes :=
  text.toList.map fun c => UInt8.ofNat c.toNat

/-- A directory of two texts, the first of which closes its list. -/
def closedTree : FileTree where
  entries :=
    [(["codes"], .directory),
      (["codes", "a.txt"], .file (bytesOfText "04003120 DEADBEEF\nF0000000 00000000\n")),
      (["codes", "b.txt"], .file (bytesOfText "04003124 01020304\n")),
      (["codes", "notes.md"], .file (bytesOfText "04003128 01020304\n"))]
  workingDirectory := []

def closedPaths : List Path :=
  [⟨"codes/a.txt"⟩, ⟨"codes/b.txt"⟩]

theorem closedTree_inside : closedTree.isDirectory ⟨"codes"⟩ = true := by decide +kernel

theorem closedTree_listed : closedPaths.Perm (closedTree.codePaths ⟨"codes"⟩) := by
  have same : closedPaths = closedTree.codePaths ⟨"codes"⟩ := by decide +kernel
  exact List.Perm.of_eq same

theorem closedTree_ordered :
    closedPaths.Pairwise fun first second => first.text ≤ second.text := by
  decide

theorem closedTree_builds : ∀ path ∈ closedPaths, ∃ list,
    closedTree.codeListAt .all path = .ok list ∧ list.codes ≠ [] := by
  have all : ∀ path ∈ closedPaths, ((closedTree.codeListAt .all path).toOption.any fun list =>
      decide (list.codes ≠ [])) = true := by
    decide +kernel
  intro path member
  obtain ⟨list, builds, some_codes⟩ := Logged.exists_of_any (all path member)
  exact ⟨list, builds, of_decide_eq_true some_codes⟩

theorem codeListAt_directory_closedTree :
    closedTree.isDirectory ⟨"codes"⟩ = true ∧ closedPaths.Perm (closedTree.codePaths ⟨"codes"⟩) ∧
    (closedPaths.Pairwise fun first second => first.text ≤ second.text) ∧
    (∀ path ∈ closedPaths, ∃ list, closedTree.codeListAt .all path = .ok list) ∧
    ∃ list, closedTree.codeListAt .all ⟨"codes"⟩ = .ok list ∧
      list.codes = (closedPaths.take 1).flatMap (closedTree.codesAt .all) := by
  have builds : ∀ path ∈ closedPaths, ∃ list, closedTree.codeListAt .all path = .ok list :=
    fun path member => (closedTree_builds path member).imp fun _ => And.left
  have first : closedPaths.findIdx (closedTree.closesListAt .all) = 0 := by decide +kernel
  obtain ⟨list, built, codes_eq, -⟩ := codeListAt_directory closedTree_inside closedTree_listed
    closedTree_ordered (fun path member => Or.inl (builds path member))
    ⟨⟨"codes/a.txt"⟩, by decide, builds _ (by decide)⟩
  rw [first] at codes_eq
  exact ⟨closedTree_inside, closedTree_listed, closedTree_ordered, builds, list, built, codes_eq⟩

/-- The codes of a text are lost behind another text that closes its list, though each of the two
builds alone. -/
theorem closing_line_loses_codes :
    closedTree.isDirectory ⟨"codes"⟩ = true ∧ closedPaths.Perm (closedTree.codePaths ⟨"codes"⟩) ∧
    (closedPaths.Pairwise fun first second => first.text ≤ second.text) ∧
    (∀ path ∈ closedPaths, ∃ list, closedTree.codeListAt .all path = .ok list ∧ list.codes ≠ []) ∧
    ∃ list, closedTree.codeListAt .all ⟨"codes"⟩ = .ok list ∧
      list.codes ≠ closedPaths.flatMap (closedTree.codesAt .all) := by
  have builds : ∀ path ∈ closedPaths, ∃ list, closedTree.codeListAt .all path = .ok list :=
    fun path member => (closedTree_builds path member).imp fun _ => And.left
  obtain ⟨list, built, codes_eq⟩ := exists_codeListAt_directory closedTree_inside closedTree_listed
    closedTree_ordered (fun path member => Or.inl (builds path member))
    ⟨⟨"codes/a.txt"⟩, by decide, builds _ (by decide)⟩
  refine ⟨closedTree_inside, closedTree_listed, closedTree_ordered, closedTree_builds, list, built, ?_⟩
  rw [codes_eq]
  decide +kernel

end FileTree

end CubePatch
