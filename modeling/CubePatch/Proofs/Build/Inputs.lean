import CubePatch.Proofs.Build.Directory

/-!
What a build gets of files that may fail.

A build reads its files one after the other, and every call may fail. What it reads is what the tree
has, and a file that cannot be read ends the build. In a directory of codes, a file that cannot be
told to be one is passed over, as a directory would be.

## Main results

`ActsOn.readInputs` and `MayAnswer.provides`: reading leaves the tree, and inputs that can be patched
are what the tree provides.
-/
namespace CubePatch

/-! ### What may be read -/

/-- The files of a tree that a file system may fail to tell as files. -/
def FileSystem.Misses (files : FileSystem (StateM σ)) (view : σ → FileTree) (tree : FileTree)
    (path : Path) : Prop :=
  ∃ state, view state = tree ∧ tree.isFile path = true ∧ (files.isFile path state).1 = false

/-- What may be found of the files in a directory: all but some that are missed. -/
inductive MayFind (missed : Path → Prop) (directory : Path) : List String → List String → Prop where
  | nil : MayFind missed directory [] []
  | found (name : String) {all kept : List String} (rest : MayFind missed directory all kept) :
    MayFind missed directory (name :: all) (name :: kept)
  | missed (name : String) {all kept : List String} (miss : missed (directory.join name))
    (rest : MayFind missed directory all kept) : MayFind missed directory (name :: all) kept

theorem MayFind.eq {missed : Path → Prop} {directory : Path} {all kept : List String}
    (finds : MayFind missed directory all kept) (none : ∀ path, ¬ missed path) : kept = all := by
  induction finds with
  | nil => rfl
  | found name _ ih => rw [ih]
  | missed name miss _ _ => exact absurd miss (none _)

namespace FileTree

/-- What may be read of a file of codes: what it is in the tree, or that it could not be had. -/
inductive MayReadFile (tree : FileTree) (path : Path) : CodeFile → Prop where
  | whole : tree.MayReadFile path (tree.codeFile path)
  | failed (format : CodeFormat) (fault : FileError) :
    tree.MayReadFile path (.content path format (.error fault))

/-- What may be read of the codes at a path: every file as it is in the tree, with some files of a
directory missed. -/
inductive MayRead (tree : FileTree) (missed : Path → Prop) (path : Path) : CodeSource → Prop where
  | single (outside : tree.isDirectory path = false) :
    tree.MayRead missed path (.single (tree.codeFile path))
  | directory {all kept : List String} (inside : tree.isDirectory path = true)
    (listed : tree.fileNames path = .ok all) (finds : MayFind missed path all kept) :
    tree.MayRead missed path
      (.directory path (.ok (kept.map fun name => tree.codeFile (path.join name))))

/-- Where no file is missed, the codes are read as they are in the tree. -/
theorem MayRead.eq_codeSource {tree : FileTree} {missed : Path → Prop} {path : Path}
    {source : CodeSource} (reads : tree.MayRead missed path source)
    (none : ∀ path, ¬ missed path) : source = tree.codeSource path := by
  unfold codeSource
  cases reads with
  | single outside => rw [if_neg (Bool.not_eq_true _ ▸ outside)]
  | directory inside listed finds =>
    rw [if_pos inside, listed, finds.eq none]
    rfl

theorem read_of_isDirectory {tree : FileTree} {path : Path}
    (inside : tree.isDirectory path = true) : tree.read path = .error .isADirectory := by
  unfold isDirectory at inside
  unfold read findFile
  split at inside
  next location located =>
    rw [located]
    dsimp only
    rw [of_decide_eq_true inside]
    rfl
  · cases inside

/-- A directory is never read as a file of codes. -/
theorem not_isDirectory_of_body {tree : FileTree} {path : Path} {selection : TextSelection}
    {body : Bytes} (read : ((tree.codeFile path).body selection).outcome = .ok body) :
    tree.isDirectory path = false := by
  by_contra inside
  unfold codeFile at read
  rw [read_of_isDirectory (Bool.not_eq_false _ ▸ inside)] at read
  split at read <;> cases read

theorem MayReadFile.eq_codeFile {tree : FileTree} {path : Path} {file : CodeFile}
    {selection : TextSelection} (reads : tree.MayReadFile path file)
    (had : (∃ path, file = .unsupported path) ∨
      ∃ bytes, (file.body selection).outcome = .ok bytes) : file = tree.codeFile path := by
  cases reads with
  | whole => rfl
  | failed format fault =>
    obtain ⟨_, other⟩ | ⟨bytes, read⟩ := had
    · cases other
    · cases format <;> cases read

theorem eq_map_codeFile {tree : FileTree} {directory : Path} {selection : TextSelection}
    {names : List String} {files : List CodeFile}
    (reads : List.Forall₂ (fun name => tree.MayReadFile (directory.join name)) names files)
    (had : ∀ file ∈ files, (∃ path, file = .unsupported path) ∨
      ∃ bytes, (file.body selection).outcome = .ok bytes) :
    files = names.map fun name => tree.codeFile (directory.join name) := by
  induction reads with
  | nil => rfl
  | cons first _ ih =>
    obtain ⟨here, later⟩ := List.forall_mem_cons.mp had
    rw [List.map_cons, first.eq_codeFile here, ih later]

/-- What was read for a build, of a tree whose files may be missed or fail. -/
structure MayAnswer (tree : FileTree) (missed : Path → Prop) (options : BuildOptions)
    (inputs : BuildInputs) : Prop where
  image : ∀ bytes, inputs.image = .ok bytes → tree.read options.image = .ok bytes
  codes : ∀ codes, (inputs.codes.codeList options.selection).outcome = .ok codes →
    tree.MayRead missed options.codes inputs.codes
  handler : ∀ bytes, inputs.handler = .ok bytes → tree.read options.handler = .ok bytes
  loader : ∀ bytes, inputs.loader = .ok bytes → tree.read options.loader = .ok bytes

/-- A file tree holds the inputs of a build, and they can be read as what they should be. -/
structure Provides (tree : FileTree) (missed : Path → Prop) (options : BuildOptions)
    (image : Image) (codes : CodeList) (handler : Handler) (loader : Bootstrap) : Prop where
  image : ∃ bytes, tree.read options.image = .ok bytes ∧ Image.ofBytes bytes = .ok image
  codes : ∃ source, tree.MayRead missed options.codes source ∧
    (source.codeList options.selection).outcome = .ok codes
  handler : ∃ bytes, tree.read options.handler = .ok bytes ∧ Handler.ofBytes bytes = .ok handler
  loader : ∃ bytes, tree.read options.loader = .ok bytes ∧ Bootstrap.ofBytes bytes = .ok loader

theorem Provides.codeListAt {tree : FileTree} {missed : Path → Prop} {options : BuildOptions}
    {image : Image} {codes : CodeList} {handler : Handler} {loader : Bootstrap}
    (provides : tree.Provides missed options image codes handler loader)
    (none : ∀ path, ¬ missed path) :
    tree.codeListAt options.selection options.codes = .ok codes := by
  obtain ⟨source, reads, built⟩ := provides.codes
  rw [codeListAt_eq, ← reads.eq_codeSource none, built]

/-- What was read for a build and can be patched is provided by the tree. -/
theorem MayAnswer.provides {tree : FileTree} {missed : Path → Prop} {options : BuildOptions}
    {inputs : BuildInputs} {out : Image} {report : BuildReport}
    (answers : tree.MayAnswer missed options inputs)
    (patched : (patchInputs options inputs).outcome = .ok (out, report)) :
    ∃ image codes handler loader, tree.Provides missed options image codes handler loader ∧
      (patchImage image codes handler loader options.settings).outcome = .ok (out, report) := by
  obtain ⟨imageBytes, imageRead, patched⟩ := Logged.bind_eq_ok patched
  obtain ⟨image, imageOpened, patched⟩ := Logged.bind_eq_ok patched
  obtain ⟨codes, codesBuilt, patched⟩ := Logged.bind_eq_ok patched
  obtain ⟨handlerBytes, handlerRead, patched⟩ := Logged.bind_eq_ok patched
  obtain ⟨handler, handlerOpened, patched⟩ := Logged.bind_eq_ok patched
  obtain ⟨loaderBytes, loaderRead, patched⟩ := Logged.bind_eq_ok patched
  obtain ⟨loader, loaderOpened, patched⟩ := Logged.bind_eq_ok patched
  rw [Logged.outcome_tell_bind] at patched
  have built := Logged.mapError_eq_ok codesBuilt
  refine ⟨image, codes, handler, loader, ?_, patched⟩
  exact
    { image := ⟨imageBytes, answers.image _ (Logged.mapError_eq_ok imageRead),
        Logged.mapError_eq_ok imageOpened⟩
      codes := ⟨inputs.codes, answers.codes codes built, built⟩
      handler := ⟨handlerBytes, answers.handler _ (Logged.mapError_eq_ok handlerRead),
        Logged.mapError_eq_ok handlerOpened⟩
      loader := ⟨loaderBytes, answers.loader _ (Logged.mapError_eq_ok loaderRead),
        Logged.mapError_eq_ok loaderOpened⟩ }

end FileTree

/-! ### Reading -/

namespace FileSystem

variable {files : FileSystem (StateM σ)} {view : σ → FileTree} (acts : files.ActsOn view)

include acts

theorem ActsOn.read_eq_ok (path : Path) (state : σ) :
    view (files.read path state).2 = view state ∧
      ∀ content, (files.read path state).1 = .ok content →
        (view state).read path = .ok content := by
  have got := acts.read path state
  cases outcome : (files.read path state).1 with
  | error fault =>
    rw [outcome] at got
    exact ⟨got, nofun⟩
  | ok content =>
    rw [outcome] at got
    refine ⟨got.2, ?_⟩
    rintro _ ⟨⟩
    exact got.1

theorem ActsOn.readCodeFile (path : Path) (state : σ) :
    view (readCodeFile files path state).2 = view state ∧
      (view state).MayReadFile path (readCodeFile files path state).1 := by
  obtain ⟨same, reads⟩ := acts.read_eq_ok path state
  have entire : (view state).MayReadFile path ((view state).codeFile path) := .whole
  unfold CubePatch.readCodeFile
  unfold FileTree.codeFile at entire
  cases known : CodeFormat.ofPath? path with
  | none =>
    rw [known] at entire
    exact ⟨rfl, entire⟩
  | some format =>
    rw [known] at entire
    refine ⟨same, ?_⟩
    show (view state).MayReadFile path (.content path format (files.read path state).1)
    cases outcome : (files.read path state).1 with
    | error fault => exact .failed format fault
    | ok content => rwa [reads content outcome] at entire

/-- Every name of a file is kept, unless the file is missed. -/
theorem ActsOn.filesAmong (directory : Path) (names : List String) (state : σ) :
    view (files.filesAmong directory names state).2 = view state ∧
      MayFind (files.Misses view (view state)) directory
        (names.filter fun name => (view state).isFile (directory.join name))
        (files.filesAmong directory names state).1 := by
  induction names generalizing state with
  | nil => exact ⟨rfl, .nil⟩
  | cons name rest ih =>
    obtain ⟨asked, told⟩ := acts.isFile (directory.join name) state
    obtain ⟨same, finds⟩ := ih (files.isFile (directory.join name) state).2
    rw [asked] at same finds
    unfold FileSystem.filesAmong
    rw [bind_state, bind_state, List.filter_cons]
    refine ⟨same, ?_⟩
    show MayFind _ _ _ (if (files.isFile (directory.join name) state).1 then name :: _ else _)
    cases answer : (files.isFile (directory.join name) state).1 with
    | true =>
      rw [if_pos (told answer), if_pos rfl]
      exact .found name finds
    | false =>
      rw [if_neg Bool.false_ne_true]
      split
      next there => exact .missed name ⟨state, rfl, there, answer⟩ finds
      next => exact finds

theorem ActsOn.mapM_readCodeFile (directory : Path) (names : List String) (state : σ) :
    let read := names.mapM (fun name => CubePatch.readCodeFile files (directory.join name)) state
    view read.2 = view state ∧
      List.Forall₂ (fun name => (view state).MayReadFile (directory.join name)) names read.1 := by
  induction names generalizing state with
  | nil => exact ⟨rfl, .nil⟩
  | cons name rest ih =>
    obtain ⟨same, first⟩ := acts.readCodeFile (directory.join name) state
    obtain ⟨again, later⟩ := ih (CubePatch.readCodeFile files (directory.join name) state).2
    rw [same] at again later
    rw [List.mapM_cons, bind_state, bind_state]
    exact ⟨again, .cons first later⟩

/-- A source whose codes could be built was read as it is in the tree. -/
theorem ActsOn.readCodeSource (path : Path) (state : σ) :
    view (readCodeSource files path state).2 = view state ∧
      ∀ selection codes,
        ((readCodeSource files path state).1.codeList selection).outcome = .ok codes →
          (view state).MayRead (files.Misses view (view state)) path
            (readCodeSource files path state).1 := by
  obtain ⟨same, told⟩ := acts.isDirectory path state
  unfold CubePatch.readCodeSource
  rw [bind_state]
  generalize (files.isDirectory path state).2 = next at same
  rw [← same] at told ⊢
  cases answer : (files.isDirectory path state).1 with
  | false =>
    rw [if_neg Bool.false_ne_true]
    obtain ⟨kept, reads⟩ := acts.readCodeFile path next
    refine ⟨kept, fun selection codes built => ?_⟩
    obtain ⟨body, read, -⟩ := Logged.bind_eq_ok built
    have file := reads.eq_codeFile (Or.inr ⟨body, read⟩)
    show (view next).MayRead _ path (.single (CubePatch.readCodeFile files path next).1)
    have read : ((CubePatch.readCodeFile files path next).1.body selection).outcome = .ok body :=
      read
    rw [file] at read ⊢
    exact .single (FileTree.not_isDirectory_of_body read)
  | true =>
    have inside := told answer
    rw [if_pos rfl, bind_state]
    have listed := acts.names path next
    cases outcome : (files.names path next).1 with
    | error fault =>
      rw [outcome] at listed
      refine ⟨listed, fun selection codes built => ?_⟩
      obtain ⟨body, read, -⟩ := Logged.bind_eq_ok built
      cases read
    | ok names =>
      rw [outcome] at listed
      obtain ⟨listed, kept⟩ := listed
      dsimp only
      generalize (files.names path next).2 = after at kept
      obtain ⟨stays, finds⟩ := acts.filesAmong path names after
      obtain ⟨still, reads⟩ := acts.mapM_readCodeFile path
        (files.filesAmong path names after).1 (files.filesAmong path names after).2
      rw [stays, kept] at still reads
      rw [kept] at finds
      rw [bind_state, bind_state]
      refine ⟨still, fun selection codes built => ?_⟩
      obtain ⟨body, read, -⟩ := Logged.bind_eq_ok built
      have all := exists_body_of_bodyOfFiles read
      -- the files were sorted and then read one after the other
      have had := FileTree.eq_map_codeFile reads fun file member =>
        all file ((List.mergeSort_perm _ _).mem_iff.mpr member)
      have files_eq : (view next).fileNames path =
          .ok (names.filter fun name => (view next).isFile (path.join name)) := by
        rw [FileTree.fileNames_eq, listed]
        rfl
      have entire := FileTree.MayRead.directory inside files_eq finds
      rwa [← had] at entire

/-- What a build reads for its inputs is what the tree has of them. -/
theorem ActsOn.readInputs (options : BuildOptions) (state : σ) :
    view (readInputs files options state).2 = view state ∧
      (view state).MayAnswer (files.Misses view (view state)) options
        (readInputs files options state).1 := by
  unfold CubePatch.readInputs
  rw [bind_state, bind_state, bind_state, bind_state]
  obtain ⟨image_same, image⟩ := acts.read_eq_ok options.image state
  generalize (files.read options.image state).2 = first at image_same
  obtain ⟨codes_same, codes⟩ := acts.readCodeSource options.codes first
  generalize (CubePatch.readCodeSource files options.codes first).2 = second at codes_same
  obtain ⟨handler_same, handler⟩ := acts.read_eq_ok options.handler second
  generalize (files.read options.handler second).2 = third at handler_same
  obtain ⟨loader_same, loader⟩ := acts.read_eq_ok options.loader third
  have second_same := codes_same.trans image_same
  have third_same := handler_same.trans second_same
  rw [image_same] at codes
  rw [second_same] at handler
  rw [third_same] at loader
  exact ⟨loader_same.trans third_same, image, codes options.selection, handler, loader⟩

end FileSystem

end CubePatch
