import CubePatch.File.System
import CubePatch.Proofs.File.Tree

/-!
File systems that keep a tree and may fail at any call.

A file system may keep anything beside its tree, such as what it will fail at. All that is asked of
a call is that it does its work on the tree or fails, with whatever error, and leaves the tree. Only
the removal of a draft is taken to be made. The draft itself may be put at any place that is free.

## Main result

`replace_cases`: wherever writing a file fails, it leaves the tree with some more directories above
the file and no draft, and a file that was written is the only one that changed.
-/
namespace CubePatch

/-- Two steps in a row do what the second does with what the first came to, in the state it left. -/
theorem bind_state (first : StateM σ α) (next : α → StateM σ β) (state : σ) :
    (first >>= next) state = next (first state).1 (first state).2 := rfl

namespace FileSystem

/-- A call comes to what it may come to on the tree of a state, or it fails and leaves the tree. -/
def Follows (view : σ → FileTree) (may : FileTree → α → FileTree → Prop)
    (call : StateM σ (Except FileError α)) : Prop :=
  ∀ state, match (call state).1 with
    | .ok value => may (view state) value (view (call state).2)
    | .error _ => view (call state).2 = view state

/-- A file system whose calls act on the tree of its state or fail without effect. A question that
fails is answered in the negative. -/
structure ActsOn (files : FileSystem (StateM σ)) (view : σ → FileTree) : Prop where
  isDirectory : ∀ path state, view (files.isDirectory path state).2 = view state ∧
    ((files.isDirectory path state).1 = true → (view state).isDirectory path = true)
  isFile : ∀ path state, view (files.isFile path state).2 = view state ∧
    ((files.isFile path state).1 = true → (view state).isFile path = true)
  read : ∀ path, Follows view
    (fun tree content after => tree.read path = .ok content ∧ after = tree) (files.read path)
  names : ∀ path, Follows view
    (fun tree names after => tree.names path = .ok names ∧ after = tree) (files.names path)
  makeDirectory : ∀ path, Follows view
    (fun tree _ after => FileTree.makeDirectory path tree = .ok () after) (files.makeDirectory path)
  createDraft : ∀ directory, Follows view
    (fun tree draft after => ∃ location, tree.IsDrafted draft location [] after)
    (files.createDraft directory)
  fillDraft : ∀ draft content, Follows view
    (fun tree _ after => FileTree.fillDraft draft content tree = .ok () after)
    (files.fillDraft draft content)
  moveDraft : ∀ draft path, Follows view
    (fun tree _ after => FileTree.moveDraft draft path tree = .ok () after)
    (files.moveDraft draft path)
  discardDraft : ∀ draft state,
    view (files.discardDraft draft state).2 = (view state).discardDraft draft

/-! ### A tree alone -/

theorem follows_attempt {change : FileTree.Change α} {may : FileTree → α → FileTree → Prop}
    (made : ∀ tree value after, change tree = .ok value after → may tree value after)
    (left : ∀ tree fault after, change tree = .error fault after → after = tree) :
    Follows id may (FileTree.attempt change) := by
  intro tree
  unfold FileTree.attempt
  cases outcome : change tree with
  | ok value after => exact made tree value after outcome
  | error fault after => exact left tree fault after outcome

theorem follows_query {question : FileTree → Except FileError α} :
    Follows id (fun tree value after => question tree = .ok value ∧ after = tree)
      (fun tree => (question tree, tree)) := by
  intro tree
  dsimp only
  cases outcome : question tree with
  | ok value => exact ⟨outcome, rfl⟩
  | error fault => rfl

/-- The files of a tree fail only where the tree makes them fail. -/
theorem system_actsOn : FileTree.system.ActsOn id where
  isDirectory _ _ := ⟨rfl, id⟩
  isFile _ _ := ⟨rfl, id⟩
  read _ := follows_query
  names _ := follows_query
  makeDirectory path := by
    refine follows_attempt (fun _ _ _ made => made) fun tree fault after failed => ?_
    unfold FileTree.makeDirectory at failed
    split at failed
    · cases failed
      rfl
    · split at failed <;> cases failed
      rfl
  createDraft directory := by
    refine follows_attempt (fun tree draft after made => ?_) fun tree fault after failed => ?_
    · unfold FileTree.createDraft at made
      dsimp only at made
      split at made
      · cases made
      next location located =>
        split at made <;> cases made
        next free => exact ⟨location, FileTree.isDrafted_of_free located free⟩
    · unfold FileTree.createDraft at failed
      dsimp only at failed
      split at failed
      · cases failed
        rfl
      · split at failed <;> cases failed
        rfl
  fillDraft draft content := by
    refine follows_attempt (fun _ _ _ made => made) fun tree fault after failed => ?_
    unfold FileTree.fillDraft at failed
    split at failed <;> cases failed
    rfl
  moveDraft draft path := by
    refine follows_attempt (fun _ _ _ made => made) fun tree fault after failed => ?_
    unfold FileTree.moveDraft at failed
    split at failed
    · cases failed
      rfl
    · split at failed <;> cases failed
      rfl
  discardDraft _ _ := rfl

/-! ### Making directories -/

variable {files : FileSystem (StateM σ)} {view : σ → FileTree}

theorem ActsOn.keepDirectory (acts : files.ActsOn view) (path : Path) (state : σ) :
    (view state).AddsDirectories [path] (view (files.keepDirectory path state).2) := by
  have made := acts.makeDirectory path state
  unfold FileSystem.keepDirectory
  rw [bind_state]
  cases outcome : (files.makeDirectory path state).1 with
  | ok =>
    rw [outcome] at made
    exact FileTree.addsDirectories_of_makeDirectory made
  | error fault =>
    rw [outcome] at made
    dsimp only
    rw [bind_state]
    -- asking whether there is a directory now changes nothing
    have asked := (acts.isDirectory path (files.makeDirectory path state).2).1.trans made
    show (view state).AddsDirectories [path]
      (view (files.isDirectory path (files.makeDirectory path state).2).2)
    rw [asked]
    exact .refl _ _

/-- However far it gets, making the directories above one another adds directories only. -/
theorem ActsOn.keepDirectories (acts : files.ActsOn view) (paths : List Path) (state : σ) :
    (view state).AddsDirectories paths (view (files.keepDirectories paths state).2) := by
  induction paths generalizing state with
  | nil => exact .refl _ _
  | cons path above ih =>
    have here (state : σ) : (view state).AddsDirectories (path :: above)
        (view (files.keepDirectory path state).2) :=
      (acts.keepDirectory path state).mono (by simp)
    unfold FileSystem.keepDirectories
    rw [bind_state]
    cases (files.keepDirectory path state).1 with
    | ok => exact here state
    | error fault =>
      cases fault with
      | notFound =>
        -- the directories above are made in what is there, and then the first one again
        have behind := (ih (files.keepDirectory path state).2).mono
          (List.subset_cons_self path above)
        dsimp only
        rw [bind_state]
        cases (files.keepDirectories above (files.keepDirectory path state).2).1 with
        | error fault => exact (here state).trans behind
        | ok => exact ((here state).trans behind).trans (here _)
      | _ => exact here state

/-! ### Writing a file -/

/-- A draft that could not be finished is still a draft. -/
theorem ActsOn.finishDraft (acts : files.ActsOn view) {tree : FileTree} {draft : Path}
    {location : Location} {state : σ} (drafted : tree.IsDrafted draft location [] (view state))
    (path : Path) (content : Bytes) :
    (∃ fault held, (files.finishDraft draft path content state).1 = .error fault ∧
      tree.IsDrafted draft location held (view (files.finishDraft draft path content state).2)) ∨
    ∃ place, (files.finishDraft draft path content state).1 = .ok () ∧
      tree.Replaces path content place (view (files.finishDraft draft path content state).2) := by
  have filled := acts.fillDraft draft content state
  unfold FileSystem.finishDraft
  rw [bind_state]
  cases outcome : (files.fillDraft draft content state).1 with
  | error fault =>
    rw [outcome] at filled
    exact Or.inl ⟨fault, [], rfl, by rwa [← filled] at drafted⟩
  | ok =>
    rw [outcome] at filled
    have full := drafted.fill filled
    have moved := acts.moveDraft draft path (files.fillDraft draft content state).2
    dsimp only
    cases result : (files.moveDraft draft path (files.fillDraft draft content state).2).1 with
    | error fault =>
      rw [result] at moved
      exact Or.inl ⟨fault, content, rfl, by rwa [← moved] at full⟩
    | ok =>
      rw [result] at moved
      obtain ⟨place, replaces⟩ := full.move moved
      exact Or.inr ⟨place, rfl, replaces⟩

theorem ActsOn.writeWhole (acts : files.ActsOn view) (path : Path) (content : Bytes) (state : σ) :
    (∃ fault, (files.writeWhole path content state).1 = .error fault ∧
      (view state).AddsDirectories [] (view (files.writeWhole path content state).2)) ∨
    ∃ place, (files.writeWhole path content state).1 = .ok () ∧
      (view state).Replaces path content place (view (files.writeWhole path content state).2) := by
  have created := acts.createDraft path.above state
  unfold FileSystem.writeWhole
  rw [bind_state]
  generalize (files.createDraft path.above state).2 = next at created
  cases outcome : (files.createDraft path.above state).1 with
  | error fault =>
    rw [outcome] at created
    refine Or.inl ⟨fault, rfl, ?_⟩
    show (view state).AddsDirectories [] (view next)
    rw [created]
    exact .refl _ _
  | ok draft =>
    rw [outcome] at created
    obtain ⟨location, drafted⟩ := created
    dsimp only
    rw [bind_state]
    obtain ⟨fault, held, failed, still⟩ | ⟨place, written, replaces⟩ :=
      acts.finishDraft drafted path content
    · rw [failed]
      refine Or.inl ⟨fault, rfl, ?_⟩
      have removed := acts.discardDraft draft (files.finishDraft draft path content next).2
      show (view state).AddsDirectories []
        (view (files.discardDraft draft (files.finishDraft draft path content next).2).2)
      rw [removed]
      exact still.discard
    · rw [written]
      exact Or.inr ⟨place, rfl, replaces⟩

/-- Writing a file adds directories above it and fails, or puts the file where its path leads. -/
theorem ActsOn.replace_cases (acts : files.ActsOn view) (path : Path) (content : Bytes)
    (state : σ) :
    (∃ fault, (files.replace path content state).1 = .error fault ∧
      (view state).AddsDirectories path.directories (view (files.replace path content state).2)) ∨
    ∃ place, (files.replace path content state).1 = .ok () ∧
      (view state).Replaces path content place (view (files.replace path content state).2) := by
  have adds := acts.keepDirectories path.directories state
  unfold FileSystem.replace
  rw [bind_state]
  generalize (files.keepDirectories path.directories state).2 = next at adds
  cases (files.keepDirectories path.directories state).1 with
  | error fault => exact Or.inl ⟨fault, rfl, adds⟩
  | ok =>
    dsimp only
    obtain ⟨fault, failed, nothing⟩ | ⟨place, written, replaces⟩ :=
      acts.writeWhole path content next
    · exact Or.inl ⟨fault, failed, adds.trans (nothing.mono (List.nil_subset _))⟩
    · exact Or.inr ⟨place, written, adds.replaces replaces⟩

end FileSystem

end CubePatch
