import CubePatch.CommandLine.Run
import CubePatch.Proofs.Build.Inputs
import CubePatch.Proofs.Build.Frame

/-!
What a run does to the files.

A run reads all it needs before it writes anything. It writes one file, which comes to its place in
one step, and every call on the way there may fail. Wherever the run fails, it does so before that
step, and what it has made by then is directories and a draft that it removes.

## Main result

`run_all_or_nothing`: whichever calls fail, a run that fails leaves every file as it was, and a run
that does not, and was not asked for help, has put the patched image at its destination and changed
no other file.
-/
namespace CubePatch

variable {files : FileSystem (StateM σ)} {view : σ → FileTree}

/-! ### Builds -/

/-- A build fails with no more than some directories above its destination, or has put there what
comes of its inputs. -/
theorem build_cases (acts : files.ActsOn view) (options : BuildOptions) (state : σ) :
    let ran := build files options state
    let place := destination options.image options.destination
    (∃ fault, ran.1.outcome = .error fault ∧
      (view state).AddsDirectories place.directories (view ran.2)) ∨
    ∃ image codes handler loader out report location,
      ran.1.outcome = .ok (place, report) ∧
      (view state).Provides (files.Misses view (view state)) options image codes handler loader ∧
      (patchImage image codes handler loader options.settings).outcome = .ok (out, report) ∧
      (view state).Replaces place out.bytes location (view ran.2) := by
  obtain ⟨same, answers⟩ := acts.readInputs options state
  unfold build
  rw [bind_state]
  generalize (readInputs files options state).2 = next at same
  rw [← same] at answers ⊢
  dsimp only
  cases patched : (patchInputs options (readInputs files options state).1).outcome with
  | error fault => exact Or.inl ⟨fault, rfl, .refl _ _⟩
  | ok made =>
    obtain ⟨out, report⟩ := made
    obtain ⟨image, codes, handler, loader, provides, patching⟩ := answers.provides patched
    dsimp only
    rw [bind_state]
    obtain ⟨fault, failed, adds⟩ | ⟨location, written, replaces⟩ :=
      acts.replace_cases (destination options.image options.destination) out.bytes next
    · rw [failed]
      exact Or.inl ⟨_, rfl, adds⟩
    · rw [written]
      exact Or.inr ⟨image, codes, handler, loader, out, report, location, rfl, provides, patching,
        replaces⟩

/-! ### Runs -/

theorem BuildError.exitCode_ne_zero (fault : BuildError) : fault.exitCode ≠ 0 := by
  unfold exitCode
  split
  · exact Nat.one_ne_zero
  · split <;> exact Nat.succ_ne_zero _
  · split <;> exact Nat.succ_ne_zero _

/-- Arguments that ask for help. -/
def AsksHelp (arguments : List String) : Prop :=
  ∃ options, RunOptions.ofArguments arguments = .ok options ∧ options.help = true

/-- The build that some arguments ask for. -/
def IsAsked (files : FileSystem (StateM σ)) (surroundings : Surroundings) (arguments : List String)
    (state : σ) (asked : BuildOptions) : Prop :=
  ∃ options, RunOptions.ofArguments arguments = .ok options ∧ options.help = false ∧
    options.build (binariesDirectory files surroundings state).1 surroundings.entropy = .ok asked

theorem binariesDirectory_view (acts : files.ActsOn view) (surroundings : Surroundings)
    (state : σ) : view (binariesDirectory files surroundings state).2 = view state := by
  unfold binariesDirectory
  cases surroundings.programDirectory with
  | none => rfl
  | some directory => exact (acts.isDirectory (directory.join binariesName) state).1

/-- A run answers its arguments and touches no file, or does the build they ask for. -/
theorem run_cases (acts : files.ActsOn view) (surroundings : Surroundings)
    (arguments : List String) (state : σ) :
    let ran := run files surroundings arguments state
    ran.1.exitCode ≠ 0 ∧ view ran.2 = view state ∨
    ran.1.exitCode = 0 ∧ AsksHelp arguments ∧ view ran.2 = view state ∨
    ∃ asked shownRank start, IsAsked files surroundings arguments state asked ∧
      view start = view state ∧ ran.1 = .ofBuild shownRank (build files asked start).1 ∧
      ran.2 = (build files asked start).2 := by
  have same := binariesDirectory_view acts surroundings state
  unfold run
  cases read : RunOptions.ofArguments arguments with
  | error fault => exact Or.inl ⟨Nat.succ_ne_zero _, rfl⟩
  | ok options =>
    dsimp only
    by_cases help : options.help = true
    · rw [if_pos help]
      exact Or.inr (Or.inl ⟨rfl, ⟨options, read, help⟩, rfl⟩)
    · rw [if_neg help, bind_state]
      cases asking : options.build (binariesDirectory files surroundings state).1
          surroundings.entropy with
      | error fault => exact Or.inl ⟨Nat.succ_ne_zero _, same⟩
      | ok asked =>
        exact Or.inr (Or.inr ⟨asked, options.shownRank, _,
          ⟨options, read, Bool.eq_false_iff.mpr help, asking⟩, same, rfl, rfl⟩)

/-- A run changes one file or none, on any file system whose calls act on a tree or fail without
effect. If it fails, the files are what they were, and no more than some directories above the
destination was added. If it does not fail and was not asked for help, the image that comes of the
inputs is at the destination, and every other file is what it was. -/
theorem run_all_or_nothing (acts : files.ActsOn view) (surroundings : Surroundings)
    (arguments : List String) (state : σ) :
    let ran := run files surroundings arguments state
    (ran.1.exitCode ≠ 0 →
      (∀ location content, FileTree.entry? (view ran.2) location = some (.file content) ↔
        FileTree.entry? (view state) location = some (.file content)) ∧
      (view ran.2 = view state ∨ ∃ asked, IsAsked files surroundings arguments state asked ∧
        (view state).AddsDirectories (destination asked.image asked.destination).directories
          (view ran.2))) ∧
    (ran.1.exitCode = 0 →
      AsksHelp arguments ∧ view ran.2 = view state ∨
      ∃ asked image codes handler loader out report location,
        IsAsked files surroundings arguments state asked ∧
        (view state).Provides (files.Misses view (view state)) asked image codes handler loader ∧
        (patchImage image codes handler loader asked.settings).outcome = .ok (out, report) ∧
        (view state).Replaces (destination asked.image asked.destination) out.bytes location
          (view ran.2)) := by
  intro ran
  obtain ⟨failed, same⟩ | ⟨succeeded, help, same⟩ |
      ⟨asked, rank, start, asks, start_eq, result, after⟩ :=
    run_cases acts surroundings arguments state
  · have unchanged (location : Location) (content : Bytes) :
        FileTree.entry? (view ran.2) location = some (.file content) ↔
          FileTree.entry? (view state) location = some (.file content) := by
      rw [show view ran.2 = view state from same]
    exact ⟨fun _ => ⟨unchanged, Or.inl same⟩, fun succeeded => absurd succeeded failed⟩
  · exact ⟨fun failed => absurd succeeded failed, fun _ => Or.inl ⟨help, same⟩⟩
  · rw [show ran.1 = _ from result, show ran.2 = _ from after, ← start_eq]
    obtain ⟨fault, failed, adds⟩ |
        ⟨image, codes, handler, loader, out, report, location, built, provides, patching,
          replaces⟩ :=
      build_cases acts asked start
    · rw [RunResult.ofBuild, failed]
      exact ⟨fun _ => ⟨adds.file_iff, Or.inr ⟨asked, asks, adds⟩⟩,
        fun succeeded => absurd succeeded fault.exitCode_ne_zero⟩
    · rw [RunResult.ofBuild, built]
      exact ⟨fun failed => absurd rfl failed, fun _ => Or.inr ⟨asked, image, codes, handler, loader,
        out, report, location, asks, provides, patching, replaces⟩⟩

/-- All that a build needs, with the binaries where a run looks for them. -/
def filledTree : FileTree where
  entries :=
    [(["game.dol"], .file hookableFile),
      (["codes.txt"], .file (FileTree.bytesOfText "04003120 DEADBEEF\n")),
      (["bin"], .directory),
      (["bin", "codehandler.bin"], .file (wordBytes bareHandler.base ++ bareHandler.payload)),
      (["bin", "geckoloader.bin"], .file bareLoader.bytes)]
  workingDirectory := []

def filledArguments : List String :=
  ["--txtcodes", "all", "--hookaddress", "80003100", "game.dol", "codes.txt"]

/-- The files of a tree that a finished draft cannot be moved in. -/
def fullSystem : FileSystem (StateM FileTree) :=
  { FileTree.system with
    moveDraft := fun _ _ tree => (.error (.other "Permission denied (os error 13)"), tree) }

theorem fullSystem_actsOn : fullSystem.ActsOn id :=
  { FileSystem.system_actsOn with moveDraft := fun _ _ _ => rfl }

/-- A run that can be made, and the same run where the last call for the file fails. -/
theorem run_all_or_nothing_filledTree :
    (let ran := run FileTree.system ⟨none, 0⟩ filledArguments filledTree
    ran.1.exitCode = 0 ∧ ¬ AsksHelp filledArguments ∧
    ∃ asked codes content location,
      IsAsked FileTree.system ⟨none, 0⟩ filledArguments filledTree asked ∧
      filledTree.codeListAt asked.selection asked.codes = .ok codes ∧
      filledTree.Replaces (destination asked.image asked.destination) content location ran.2) ∧
    let ran := run fullSystem ⟨none, 0⟩ filledArguments filledTree
    ran.1.exitCode = 1 ∧ ∀ location content,
      FileTree.entry? ran.2 location = some (.file content) ↔
        filledTree.entry? location = some (.file content) := by
  have succeeded : (run FileTree.system ⟨none, 0⟩ filledArguments filledTree).1.exitCode = 0 := by
    decide +kernel
  have failed : (run fullSystem ⟨none, 0⟩ filledArguments filledTree).1.exitCode = 1 := by
    decide +kernel
  have helpless : ¬ AsksHelp filledArguments := by
    have read : (RunOptions.ofArguments filledArguments).toOption.any (·.help) = false := by
      decide +kernel
    rintro ⟨options, found, help⟩
    rw [found] at read
    exact absurd help (Bool.eq_false_iff.mp read)
  have misses (path : Path) : ¬ FileTree.system.Misses id filledTree path := by
    rintro ⟨_, rfl, there, missed⟩
    exact absurd there (Bool.eq_false_iff.mp missed)
  refine ⟨⟨succeeded, helpless, ?_⟩, failed, ?_⟩
  · obtain ⟨help, -⟩ | ⟨asked, _, codes, _, _, out, _, location, asks, provides, -, replaces⟩ :=
      (run_all_or_nothing FileSystem.system_actsOn ⟨none, 0⟩ filledArguments filledTree).2 succeeded
    · exact absurd help helpless
    · exact ⟨asked, codes, out.bytes, location, asks, provides.codeListAt misses, replaces⟩
  · refine ((run_all_or_nothing fullSystem_actsOn ⟨none, 0⟩ filledArguments filledTree).1 ?_).1
    rw [failed]
    exact Nat.one_ne_zero

end CubePatch
