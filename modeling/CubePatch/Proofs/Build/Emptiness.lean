import CubePatch.Proofs.Build.Directory
import CubePatch.Proofs.Build.Hook

/-!
Builds without codes.

Whether a source holds codes is asked of its bare bytes, before they are read as a list. Bytes that
begin with a line that closes a list pass, and reading them stops at once: the list that is built
has no codes. A binary list is cut off where it is closed and never begins with such a line, so it is
a text that does, and no file in front of it holds any codes.

## Main result

`codeListAt_without_codes`: when a build has no codes, when it is refused for having none, and what
patching with no codes reports.
-/
namespace CubePatch

/-! ### Bytes that begin with a closing line -/

/-- Bare codes that begin with a line that closes a list. -/
def BeginsClosed (body : Bytes) : Prop :=
  ∃ (closing : Line) (rest : Bytes), closing.kind = .terminator ∧ body = closing.bytes ++ rest

theorem not_beginsClosed_nil : ¬ BeginsClosed [] := by
  rintro ⟨closing, rest, -, empty⟩
  have length := congrArg List.length empty
  rw [List.length_append, Line.length_bytes, List.length_nil] at length
  omega

/-- Lines are told apart by their bytes. -/
theorem Line.eq_of_bytes_append {first second : Line} {rest others : Bytes}
    (same : first.bytes ++ rest = second.bytes ++ others) : first = second := by
  have taken := congrArg Line.take? same
  rw [Line.take?_bytes, Line.take?_bytes] at taken
  exact congrArg Prod.fst (Option.some.inj taken)

/-- What is behind whole lines has no part in how the bytes begin. -/
theorem beginsClosed_append {first : Bytes} (nonempty : first ≠ []) (whole : 8 ∣ first.length)
    (rest : Bytes) : BeginsClosed (first ++ rest) ↔ BeginsClosed first := by
  constructor
  · rintro ⟨closing, behind, closes, same⟩
    refine ⟨closing, first.drop 8, closes, ?_⟩
    have long : 8 ≤ first.length := Nat.le_of_dvd (List.length_pos_iff.mpr nonempty) whole
    have front : first.take 8 = closing.bytes := by
      have taken := congrArg (List.take 8) same
      rw [List.take_append_of_le_length long, List.take_left' closing.length_bytes] at taken
      exact taken
    rw [← front, List.take_append_drop]
  · rintro ⟨closing, behind, closes, rfl⟩
    exact ⟨closing, behind ++ rest, closes, List.append_assoc _ _ _⟩

/-- Bytes one behind the other begin as the first ones do that are there. -/
theorem beginsClosed_flatMap_iff {items : List α} {bytes : α → Bytes}
    (whole : ∀ item ∈ items, 8 ∣ (bytes item).length) :
    BeginsClosed (items.flatMap bytes) ↔ ∃ before item after, items = before ++ item :: after ∧
      (∀ other ∈ before, bytes other = []) ∧ BeginsClosed (bytes item) := by
  induction items with
  | nil =>
    simp [not_beginsClosed_nil]
  | cons item items ih =>
    obtain ⟨first, later⟩ := List.forall_mem_cons.mp whole
    rw [List.flatMap_cons]
    -- the first item decides, unless it has no bytes
    by_cases empty : bytes item = []
    · rw [empty, List.nil_append, ih later]
      constructor
      · rintro ⟨before, found, after, rfl, none_before, closed⟩
        exact ⟨item :: before, found, after, rfl, List.forall_mem_cons.mpr ⟨empty, none_before⟩,
          closed⟩
      · rintro ⟨_ | ⟨other, before⟩, found, after, split, none_before, closed⟩
        · cases split
          rw [empty] at closed
          exact absurd closed not_beginsClosed_nil
        · cases split
          exact ⟨before, found, after, rfl, (List.forall_mem_cons.mp none_before).2, closed⟩
    · rw [beginsClosed_append empty first]
      constructor
      · intro closed
        exact ⟨[], item, items, rfl, List.forall_mem_nil _, closed⟩
      · rintro ⟨_ | ⟨other, before⟩, found, after, split, none_before, closed⟩
        · cases split
          exact closed
        · cases split
          exact absurd (none_before _ List.mem_cons_self) empty

namespace CodeList

/-- No codes are read where a closing line comes first. -/
theorem exists_ofBody_of_beginsClosed {body : Bytes} (closed : BeginsClosed body) :
    ∃ list behind, ofBody body = .ok (list, behind) ∧ list.codes = [] := by
  obtain ⟨closing, rest, closes, rfl⟩ := closed
  refine ⟨⟨[], closing, closes⟩, rest ++ terminator.bytes, ?_, rfl⟩
  rw [ofBody_eq, List.append_assoc]
  exact scan_codes magic.length [] closes _

theorem codes_eq_nil_iff {body behind : Bytes} {list : CodeList} (whole : 8 ∣ body.length)
    (nonempty : body ≠ []) (read : ofBody body = .ok (list, behind)) :
    list.codes = [] ↔ BeginsClosed body := by
  constructor
  · intro none_read
    have part := isPart_of_ofBody whole read
    rw [none_read] at part
    generalize decide (behind ≠ []) = isLast at part
    cases part with
    | bare => exact absurd rfl nonempty
    | closed _ closing closes rest => exact ⟨closing, rest, closes, rfl⟩
  · intro closed
    obtain ⟨other, left, again, none_read⟩ := exists_ofBody_of_beginsClosed closed
    rw [read] at again
    cases again
    exact none_read

/-- The codes of a list do not begin with the end of one. -/
theorem not_beginsClosed_body (list : CodeList) : ¬ BeginsClosed list.body := by
  rintro ⟨closing, rest, closes, same⟩
  unfold body at same
  cases codes : list.codes with
  | nil =>
    rw [codes] at same
    exact not_beginsClosed_nil ⟨closing, rest, closes, same⟩
  | cons code codes =>
    rw [codes, List.flatMap_cons, Code.bytes, List.append_assoc] at same
    exact code.running (Line.eq_of_bytes_append same ▸ closes)

end CodeList

theorem beginsClosed_textBody_iff (selection : TextSelection) (bytes : Bytes) :
    BeginsClosed (textBody selection bytes) ↔
      ∃ closing codes, codesOfText selection (decodeText bytes) = closing :: codes ∧
        closing.kind = .terminator := by
  unfold textBody
  cases codesOfText selection (decodeText bytes) with
  | nil => simp [not_beginsClosed_nil]
  | cons first codes =>
    rw [List.flatMap_cons]
    constructor
    · rintro ⟨closing, rest, closes, same⟩
      exact ⟨first, codes, rfl, Line.eq_of_bytes_append same ▸ closes⟩
    · rintro ⟨closing, others, same, closes⟩
      cases same
      exact ⟨first, _, closes, rfl⟩

/-! ### The files of a source -/

theorem bodyOfFiles_ne_empty {selection : TextSelection} {files : List CodeFile}
    {fault : SourceError} (failed : (bodyOfFiles selection files).outcome = .error fault)
    (path : Path) : fault ≠ .empty path := by
  induction files with
  | nil => cases failed
  | cons file files ih =>
    cases file with
    | unsupported other => exact ih failed
    | content other format bytes =>
      obtain here | ⟨first, -, failed⟩ := Logged.bind_eq_error failed
      · exact CodeFile.body_ne_empty here path
      · obtain behind | ⟨later, -, failed⟩ := Logged.bind_eq_error failed
        · exact ih behind
        · cases failed

/-- While a source is read, nothing is said about codes that are missing. -/
theorem CodeSource.body_ne_empty {selection : TextSelection} {source : CodeSource}
    {fault : SourceError} (failed : (source.body selection).outcome = .error fault) (path : Path) :
    fault ≠ .empty path := by
  cases source with
  | single file => exact CodeFile.body_ne_empty failed path
  | directory directory listed =>
    cases listed with
    | error reason =>
      cases failed
      exact SourceError.noConfusion
    | ok files => exact bodyOfFiles_ne_empty failed path

namespace FileTree

variable (tree : FileTree) (selection : TextSelection)

/-- The paths of the files whose codes are built for a path, in the order in which they are read. -/
def sourcePaths (path : Path) : List Path :=
  if tree.isDirectory path then
    (tree.codePaths path).mergeSort fun first second => !decide (second.text < first.text)
  else [path]

/-- The codes of the file at a path can be read. -/
def IsReadable (path : Path) : Prop :=
  ((tree.codeFile path).body selection).outcome = .ok (tree.bodyAt selection path)

/-- The file at a path is a text, and a line that closes a code list is the first of its codes. -/
def IsClosedText (path : Path) : Prop :=
  CodeFormat.ofPath? path = some .text ∧ ∃ bytes closing codes, tree.read path = .ok bytes ∧
    codesOfText selection (decodeText bytes) = closing :: codes ∧ closing.kind = .terminator

theorem isReadable_of_eq_ok {path : Path} {body : Bytes}
    (read : ((tree.codeFile path).body selection).outcome = .ok body) :
    tree.IsReadable selection path := by
  rw [IsReadable, bodyAt, read]
  rfl

theorem beginsClosed_bodyAt_iff {path : Path} (readable : tree.IsReadable selection path) :
    BeginsClosed (tree.bodyAt selection path) ↔ tree.IsClosedText selection path := by
  unfold IsReadable codeFile at readable
  unfold IsClosedText
  generalize tree.bodyAt selection path = body at readable ⊢
  cases format : CodeFormat.ofPath? path with
  | none =>
    rw [format] at readable
    cases readable
  | some known =>
    rw [format] at readable
    cases stored : tree.read path with
    | error fault =>
      rw [stored] at readable
      cases readable
    | ok bytes =>
      rw [stored] at readable
      cases known with
      | text =>
        obtain ⟨-, -, made⟩ := Logged.bind_eq_ok readable
        cases made
        simp [beginsClosed_textBody_iff]
      | binary =>
        obtain ⟨list, -, made⟩ := Logged.bind_eq_ok readable
        cases made
        simp [CodeList.not_beginsClosed_body]

theorem sourcePaths_directory {directory : Path} (inside : tree.isDirectory directory = true) :
    (tree.sourcePaths directory).Perm (tree.codePaths directory) ∧
      (tree.sourcePaths directory).Pairwise fun first second => first.text ≤ second.text := by
  rw [sourcePaths, if_pos inside]
  refine ⟨List.mergeSort_perm _ _, (List.pairwise_mergeSort ?_ ?_ _).imp ?_⟩
  all_goals simp only [Bool.or_eq_true, Bool.not_eq_true', decide_eq_false_iff_not, String.not_lt]
  · exact fun first second third lower upper => String.le_trans lower upper
  · exact fun first second => String.le_total _ _
  · exact id

/-- The bare codes of a source are those of its files, and they are there if all files are. -/
theorem outcome_body_eq_ok_iff (path : Path) (body : Bytes) :
    ((tree.codeSource path).body selection).outcome = .ok body ↔
      (∀ file ∈ tree.sourcePaths path, tree.IsReadable selection file) ∧
        body = (tree.sourcePaths path).flatMap (tree.bodyAt selection) := by
  by_cases inside : tree.isDirectory path = true
  · obtain ⟨listed, ordered⟩ := tree.sourcePaths_directory inside
    have made (all : ∀ file ∈ tree.sourcePaths path, tree.IsReadable selection file) :=
      tree.outcome_body_directory selection inside listed ordered all
    constructor
    · intro read
      have all : ∀ file ∈ tree.sourcePaths path, tree.IsReadable selection file := by
        intro file member
        obtain ⟨member, known⟩ := List.mem_filter.mp (listed.mem_iff.mp member)
        obtain ⟨names, named⟩ := exists_fileNames inside
        rw [named] at member
        have source : tree.codeSource path =
            .directory path (.ok ((names.map path.join).map tree.codeFile)) := by
          rw [codeSource, if_pos inside, named, List.map_map]
          rfl
        rw [source] at read
        -- the file is one of those that were sorted and then read one after the other
        have sorted : tree.codeFile file ∈ sortFiles ((names.map path.join).map tree.codeFile) :=
          (List.mergeSort_perm _ _).mem_iff.mpr (List.mem_map_of_mem member)
        obtain ⟨other, unsupported⟩ | ⟨bytes, here⟩ := exists_body_of_bodyOfFiles read _ sorted
        · rw [codeFile] at unsupported
          split at unsupported
          · cases unsupported
          next missing =>
            rw [missing] at known
            cases known
        · exact tree.isReadable_of_eq_ok selection here
      exact ⟨all, Except.ok.inj (read.symm.trans (made all))⟩
    · rintro ⟨all, rfl⟩
      exact made all
  · have source : tree.codeSource path = .single (tree.codeFile path) := by
      rw [codeSource, if_neg inside]
    rw [source, sourcePaths, if_neg inside, List.flatMap_singleton, List.forall_mem_singleton]
    constructor
    · intro read
      have readable := tree.isReadable_of_eq_ok selection read
      exact ⟨readable, Except.ok.inj (read.symm.trans readable)⟩
    · rintro ⟨readable, rfl⟩
      exact readable

/-- The bare codes of a path, those of its files one behind the other. -/
def sourceBody (path : Path) : Bytes :=
  (tree.sourcePaths path).flatMap (tree.bodyAt selection)

theorem path_codeSource (path : Path) : (tree.codeSource path).path = path := by
  unfold codeSource
  split
  · rfl
  · exact tree.path_codeFile path

theorem codeListAt_eq_ok_iff (path : Path) (list : CodeList) :
    tree.codeListAt selection path = .ok list ↔
      (∀ file ∈ tree.sourcePaths path, tree.IsReadable selection file) ∧
        tree.sourceBody selection path ≠ [] ∧
        ∃ behind, CodeList.ofBody (tree.sourceBody selection path) = .ok (list, behind) := by
  rw [codeListAt_eq, outcome_codeList]
  constructor
  · intro built
    cases read : ((tree.codeSource path).body selection).outcome with
    | error fault =>
      rw [read] at built
      cases built
    | ok body =>
      obtain ⟨all, rfl⟩ := (tree.outcome_body_eq_ok_iff selection path body).mp read
      rw [read, Except.bind] at built
      split at built
      · cases built
      next nonempty =>
        refine ⟨all, nonempty, ?_⟩
        rw [sourceBody]
        generalize CodeList.ofBody _ = scanned at built ⊢
        cases scanned <;> cases built
        exact ⟨_, rfl⟩
  · rintro ⟨all, nonempty, behind, scanned⟩
    have read := (tree.outcome_body_eq_ok_iff selection path _).mpr ⟨all, rfl⟩
    rw [sourceBody] at nonempty scanned
    rw [read, Except.bind, if_neg nonempty, scanned]
    rfl

/-- A source is refused for having no codes if no file has any and all of them are there. -/
theorem codeListAt_eq_empty_iff (path place : Path) :
    tree.codeListAt selection path = .error (.empty place) ↔ place = path ∧
      ∀ file ∈ tree.sourcePaths path,
        tree.IsReadable selection file ∧ tree.bodyAt selection file = [] := by
  rw [codeListAt_eq, outcome_codeList, path_codeSource]
  constructor
  · intro refused
    cases read : ((tree.codeSource path).body selection).outcome with
    | error fault =>
      rw [read] at refused
      cases refused
      exact absurd rfl (CodeSource.body_ne_empty read place)
    | ok body =>
      obtain ⟨all, rfl⟩ := (tree.outcome_body_eq_ok_iff selection path body).mp read
      rw [read, Except.bind] at refused
      split at refused
      next empty =>
        cases refused
        exact ⟨rfl, fun file member => ⟨all file member, List.flatMap_eq_nil_iff.mp empty file member⟩⟩
      next =>
        generalize CodeList.ofBody _ = scanned at refused
        cases scanned <;> cases refused
  · rintro ⟨rfl, all⟩
    have read := (tree.outcome_body_eq_ok_iff selection place _).mpr
      ⟨fun file member => (all file member).1, rfl⟩
    have empty := List.flatMap_eq_nil_iff.mpr fun file member => (all file member).2
    rw [read, Except.bind, if_pos empty]

/-- A list that is built has no codes exactly if the first codes of the source are those of a closed
text. -/
theorem codeListAt_codes_eq_nil_iff (path : Path) :
    (∃ list, tree.codeListAt selection path = .ok list ∧ list.codes = []) ↔
      (∀ file ∈ tree.sourcePaths path, tree.IsReadable selection file) ∧
        ∃ before text after, tree.sourcePaths path = before ++ text :: after ∧
          (∀ file ∈ before, tree.bodyAt selection file = []) ∧
          tree.IsClosedText selection text := by
  simp only [codeListAt_eq_ok_iff, and_assoc, exists_and_left]
  refine and_congr_right fun all => ?_
  have whole (file : Path) (member : file ∈ tree.sourcePaths path) :
      8 ∣ (tree.bodyAt selection file).length :=
    CodeFile.eight_dvd_body (all file member)
  -- the bodies are whole lines, so the first that is not empty tells how all bytes begin
  have closed_iff : BeginsClosed (tree.sourceBody selection path) ↔
      ∃ before text after, tree.sourcePaths path = before ++ text :: after ∧
        (∀ file ∈ before, tree.bodyAt selection file = []) ∧ tree.IsClosedText selection text := by
    rw [sourceBody, beginsClosed_flatMap_iff whole]
    refine exists_congr fun before => exists_congr fun text => exists_congr fun after =>
      and_congr_right fun split => and_congr_right fun _ =>
        tree.beginsClosed_bodyAt_iff selection (all text ?_)
    exact split ▸ List.mem_append_right _ List.mem_cons_self
  rw [← closed_iff]
  constructor
  · rintro ⟨nonempty, list, ⟨behind, read⟩, none_read⟩
    exact (CodeList.codes_eq_nil_iff (CodeList.eight_dvd_flatMap whole) nonempty read).mp none_read
  · intro closed
    obtain ⟨list, behind, read, none_read⟩ := CodeList.exists_ofBody_of_beginsClosed closed
    refine ⟨?_, list, ⟨behind, read⟩, none_read⟩
    intro empty
    rw [empty] at closed
    exact not_beginsClosed_nil closed

end FileTree

/-! ### Patching with no codes -/

theorem mem_events_allAbsorbed_iff (report : BuildReport) :
    .allAbsorbed ∈ report.events ↔ report.area = none := by
  unfold BuildReport.events BuildReport.isFullyAbsorbed
  cases area : report.area <;> simp

/-- With no codes, nothing but the protection code can be left to install. -/
theorem patchImage_without_codes {image out : Image} {codes : CodeList} {handler : Handler}
    {loader : Bootstrap} {settings : PatchSettings} {report : BuildReport}
    (none_given : codes.codes = [])
    (patched : (patchImage image codes handler loader settings).outcome = .ok (out, report)) :
    (.allAbsorbed ∈ report.events ↔ ¬ (report.placement = .arena ∧ settings.protect = true)) ∧
      (.allAbsorbed ∈ report.events → out = image) := by
  obtain ⟨prepared, init, middle, left, counts, -, preparing, absorbing, -, finish⟩ :=
    patchImage_stages patched
  have prepared_eq : prepared.codes = settings.inserted report.placement ++ [] :=
    none_given ▸ (prepare_eq_ok preparing).1
  -- what was put in front of no codes is not absorbed, so it is all that is left
  have unabsorbed : middle = image ∧ left.codes = settings.inserted report.placement := by
    rw [outcome_absorbIfAsked, CodeList.absorb, prepared_eq, absorbCodes_inserted] at absorbing
    split at absorbing
    · cases absorbing
      refine ⟨rfl, ?_⟩
      unfold Absorption.remaining PatchSettings.inserted
      split <;> rfl
    · cases absorbing
      exact ⟨rfl, by rw [prepared_eq, List.append_nil]⟩
  obtain ⟨rfl, left_eq⟩ := unabsorbed
  rw [mem_events_allAbsorbed_iff]
  rw [left_eq, PatchSettings.inserted] at finish
  split at finish
  next protects =>
    obtain ⟨nothing, -⟩ | ⟨-, stages, -, -, -, area⟩ := finish
    · cases nothing
    · simp [area, protects]
  next bare =>
    obtain ⟨-, same, area⟩ | ⟨something, -⟩ := finish
    · exact ⟨iff_of_true area bare, fun _ => same⟩
    · exact absurd rfl something

namespace FileTree

/-- A build has no codes exactly if the first codes of its files are those of a text that begin with
a line that closes a list. It is refused for having none exactly if no file holds any bytes of codes.
Patching with no codes reports that all of them were absorbed, though there was nothing to absorb,
unless the protection code is put in. -/
theorem codeListAt_without_codes (tree : FileTree) (selection : TextSelection) (path : Path) :
    ((∃ list, tree.codeListAt selection path = .ok list ∧ list.codes = []) ↔
      (∀ file ∈ tree.sourcePaths path, tree.IsReadable selection file) ∧
        ∃ before text after, tree.sourcePaths path = before ++ text :: after ∧
          (∀ file ∈ before, tree.bodyAt selection file = []) ∧
          tree.IsClosedText selection text) ∧
    (∀ place, tree.codeListAt selection path = .error (.empty place) ↔ place = path ∧
      ∀ file ∈ tree.sourcePaths path,
        tree.IsReadable selection file ∧ tree.bodyAt selection file = []) ∧
    ∀ list image handler loader settings out report, tree.codeListAt selection path = .ok list →
      list.codes = [] →
      (patchImage image list handler loader settings).outcome = .ok (out, report) →
      (.allAbsorbed ∈ report.events ↔ ¬ (report.placement = .arena ∧ settings.protect = true)) ∧
        (.allAbsorbed ∈ report.events → out = image) :=
  ⟨tree.codeListAt_codes_eq_nil_iff selection path, tree.codeListAt_eq_empty_iff selection path,
    fun _ _ _ _ _ _ _ _ none_built patched => patchImage_without_codes none_built patched⟩

/-- A tree with one text, which holds nothing but a line that closes a list. -/
def bareTree : FileTree where
  entries := [(["a.txt"], .file (bytesOfText "F0000000 00000000\n"))]
  workingDirectory := []

theorem bareTree_builds :
    bareTree.codeListAt .all ⟨"a.txt"⟩ = .ok ⟨[], ⟨0xF0000000, 0⟩, by decide⟩ := by
  have same : ((bareTree.codeListAt .all ⟨"a.txt"⟩).toOption.any fun list =>
      decide (list = ⟨[], ⟨0xF0000000, 0⟩, by decide⟩)) = true := by
    decide +kernel
  obtain ⟨list, built, same⟩ := Logged.exists_of_any same
  rw [built, of_decide_eq_true same]

theorem bareTree_patches : ∃ report,
    (patchImage hookableImage ⟨[], ⟨0xF0000000, 0⟩, by decide⟩ bareHandler bareLoader
      (legacySettings none)).outcome = .ok (hookableImage, report) ∧
    .allAbsorbed ∈ report.events := by
  have same : ((patchImage hookableImage ⟨[], ⟨0xF0000000, 0⟩, by decide⟩ bareHandler bareLoader
      (legacySettings none)).outcome.toOption.any fun result =>
        decide (.allAbsorbed ∈ result.2.events)) = true := by
    decide +kernel
  obtain ⟨⟨out, report⟩, patched, told⟩ := Logged.exists_of_any same
  have told := of_decide_eq_true told
  obtain rfl := (patchImage_without_codes rfl patched).2 told
  exact ⟨report, patched, told⟩

theorem codeListAt_without_codes_bareTree :
    (∃ before text after, bareTree.sourcePaths ⟨"a.txt"⟩ = before ++ text :: after ∧
      (∀ file ∈ before, bareTree.bodyAt .all file = []) ∧ bareTree.IsClosedText .all text) ∧
    ∃ list report, bareTree.codeListAt .all ⟨"a.txt"⟩ = .ok list ∧ list.codes = [] ∧
      (patchImage hookableImage list bareHandler bareLoader (legacySettings none)).outcome =
        .ok (hookableImage, report) ∧
      ¬ (report.placement = .arena ∧ (legacySettings none).protect = true) := by
  have exact_builds := codeListAt_without_codes bareTree .all ⟨"a.txt"⟩
  obtain ⟨report, patched, told⟩ := bareTree_patches
  exact ⟨(exact_builds.1.mp ⟨_, bareTree_builds, rfl⟩).2, _, report, bareTree_builds, rfl, patched,
    (exact_builds.2.2 _ _ _ _ _ _ _ bareTree_builds rfl patched).1.mp told⟩

/-- A text with nothing but a closing line is built as a list without codes, and patching with it
reports that all codes were absorbed. -/
theorem closing_line_builds_no_codes :
    ∃ list report, bareTree.codeListAt .all ⟨"a.txt"⟩ = .ok list ∧ list.codes = [] ∧
      (patchImage hookableImage list bareHandler bareLoader (legacySettings none)).outcome =
        .ok (hookableImage, report) ∧ .allAbsorbed ∈ report.events := by
  obtain ⟨report, patched, told⟩ := bareTree_patches
  exact ⟨_, report, bareTree_builds, rfl, patched, told⟩

end FileTree

end CubePatch
