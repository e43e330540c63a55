import CubePatch.File.Tree

/-!
# Access to files

What a run needs of the files around it. A file tree gives it in memory, so that a whole run can be
reasoned about. Directories are made from the last one that is there downwards, and stay if what
they were made for fails. A file is written beside its place first and comes there in one step.
-/
namespace CubePatch

structure FileSystem (m : Type → Type) where
  isDirectory : Path → m Bool
  isFile : Path → m Bool
  read : Path → m (Except FileError Bytes)
  /-- The names in a directory. -/
  names : Path → m (Except FileError (List String))
  /-- Makes one directory in a directory that is there. -/
  makeDirectory : Path → m (Except FileError Unit)
  /-- Makes an empty file under a new name in a directory. -/
  createDraft : Path → m (Except FileError Path)
  /-- Writes the whole content of a draft. -/
  fillDraft : Path → Bytes → m (Except FileError Unit)
  /-- Moves a draft into the place of a file, in one step. -/
  moveDraft : Path → Path → m (Except FileError Unit)
  /-- Removes a draft. -/
  discardDraft : Path → m Unit

namespace FileSystem

/-- Those of some names that are names of files in a directory. -/
def filesAmong [Monad m] (files : FileSystem m) (directory : Path) : List String → m (List String)
  | [] => return []
  | name :: rest => do
    let found ← files.isFile (directory.join name)
    let later ← files.filesAmong directory rest
    return if found then name :: later else later

/-- Makes one directory, or leaves it if it is there. -/
def keepDirectory [Monad m] (files : FileSystem m) (path : Path) : m (Except FileError Unit) := do
  match ← files.makeDirectory path with
  | .ok () => return .ok ()
  | .error fault => return if ← files.isDirectory path then .ok () else .error fault

/-- Makes the first of some directories, each of which is in the next one. Those that are missing
are made before it. -/
def keepDirectories [Monad m] (files : FileSystem m) : List Path → m (Except FileError Unit)
  | [] => return .ok ()
  | path :: above => do
    match ← files.keepDirectory path with
    | .error .notFound =>
      match ← files.keepDirectories above with
      | .error fault => return .error fault
      | .ok () => files.keepDirectory path
    | result => return result

/-- Makes a draft the file it was made for. -/
def finishDraft [Monad m] (files : FileSystem m) (draft path : Path) (content : Bytes) :
    m (Except FileError Unit) := do
  match ← files.fillDraft draft content with
  | .error fault => return .error fault
  | .ok () => files.moveDraft draft path

/-- Writes a file beside its place and then moves it there. A draft that is not moved is removed. -/
def writeWhole [Monad m] (files : FileSystem m) (path : Path) (content : Bytes) :
    m (Except FileError Unit) := do
  match ← files.createDraft path.above with
  | .error fault => return .error fault
  | .ok draft =>
    match ← files.finishDraft draft path content with
    | .ok () => return .ok ()
    | .error fault =>
      files.discardDraft draft
      return .error fault

/-- Writes a file as a whole, with the directories above it. -/
def replace [Monad m] (files : FileSystem m) (path : Path) (content : Bytes) :
    m (Except FileError Unit) := do
  match ← files.keepDirectories path.directories with
  | .error fault => return .error fault
  | .ok () => files.writeWhole path content

end FileSystem

namespace FileTree

/-- Makes a change and tells whether it failed. -/
def attempt (change : Change α) : StateM FileTree (Except FileError α) := fun tree =>
  match change tree with
  | .ok value after => (.ok value, after)
  | .error fault after => (.error fault, after)

/-- The files of a tree. -/
def system : FileSystem (StateM FileTree) where
  isDirectory path := fun tree => (tree.isDirectory path, tree)
  isFile path := fun tree => (tree.isFile path, tree)
  read path := fun tree => (tree.read path, tree)
  names path := fun tree => (tree.names path, tree)
  makeDirectory path := attempt (makeDirectory path)
  createDraft directory := attempt (createDraft directory)
  fillDraft draft content := attempt (fillDraft draft content)
  moveDraft draft path := attempt (moveDraft draft path)
  discardDraft draft := fun tree => ((), tree.discardDraft draft)

end FileTree

end CubePatch
