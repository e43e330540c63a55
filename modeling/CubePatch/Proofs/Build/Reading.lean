import CubePatch.Build
import CubePatch.Proofs.File.System

/-!
The codes at a path of a file tree.

Reading changes nothing, so all that is read for the codes is read of the same tree, and can be said
without the order of the reads.
-/
namespace CubePatch

namespace FileTree

/-- A file of codes as it is read from a tree. -/
def codeFile (tree : FileTree) (path : Path) : CodeFile :=
  match CodeFormat.ofPath? path with
  | some format => .content path format (tree.read path)
  | none => .unsupported path

/-- The codes at a path as they are read from a tree. -/
def codeSource (tree : FileTree) (path : Path) : CodeSource :=
  if tree.isDirectory path then
    .directory path
      ((tree.fileNames path).map fun names => names.map fun name => tree.codeFile (path.join name))
  else .single (tree.codeFile path)

@[simp] theorem path_codeFile (tree : FileTree) (path : Path) : (tree.codeFile path).path = path := by
  unfold codeFile
  split <;> rfl

theorem fileNames_eq (tree : FileTree) (path : Path) :
    tree.fileNames path =
      (tree.names path).map fun names => names.filter fun name => tree.isFile (path.join name) := by
  unfold fileNames names
  cases tree.locate path <;> rfl

theorem readCodeFile_system (tree : FileTree) (path : Path) :
    readCodeFile system path tree = (tree.codeFile path, tree) := by
  unfold readCodeFile codeFile
  cases CodeFormat.ofPath? path <;> rfl

theorem filesAmong_system (tree : FileTree) (directory : Path) (names : List String) :
    system.filesAmong directory names tree =
      (names.filter fun name => tree.isFile (directory.join name), tree) := by
  induction names with
  | nil => rfl
  | cons name rest ih =>
    have asked : system.isFile (directory.join name) tree =
        (tree.isFile (directory.join name), tree) := rfl
    unfold FileSystem.filesAmong
    rw [bind_state, asked]
    dsimp only
    rw [bind_state, ih, List.filter_cons]
    rfl

/-- Reading one file after the other reads each of them in the same tree. -/
theorem mapM_readCodeFile_system (tree : FileTree) (path : Path) (names : List String) :
    (names.mapM fun name => readCodeFile system (path.join name)) tree =
      (names.map fun name => tree.codeFile (path.join name), tree) := by
  induction names with
  | nil => rfl
  | cons name rest ih =>
    rw [List.mapM_cons, bind_state, readCodeFile_system]
    dsimp only
    rw [bind_state, ih]
    rfl

theorem readCodeSource_system (tree : FileTree) (path : Path) :
    readCodeSource system path tree = (tree.codeSource path, tree) := by
  have asked : system.isDirectory path tree = (tree.isDirectory path, tree) := rfl
  have listed : system.names path tree = (tree.names path, tree) := rfl
  unfold readCodeSource codeSource
  rw [bind_state, asked]
  dsimp only
  by_cases directory : tree.isDirectory path = true
  · rw [if_pos directory, if_pos directory, bind_state, listed, fileNames_eq]
    dsimp only
    cases tree.names path with
    | error fault => rfl
    | ok names =>
      dsimp only
      rw [bind_state, filesAmong_system]
      dsimp only
      rw [bind_state, mapM_readCodeFile_system]
      rfl
  · rw [if_neg directory, if_neg directory, bind_state, readCodeFile_system]
    rfl

end FileTree

end CubePatch
