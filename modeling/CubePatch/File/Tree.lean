import CubePatch.Bytes
import CubePatch.File.Error
import CubePatch.File.Path
import CubePatch.Hexadecimal

/-!
# File trees

A file tree says what is stored at which location, and from which directory relative paths start. A
path is followed piece by piece: each step needs a directory to start from, also a step that stays
where it is, so a path with a slash behind the name of a file leads nowhere. Names and paths have a
greatest length, counted in bytes; the length of a path is looked at before anything is followed.
-/
namespace CubePatch

/-- The names on the way from the root. -/
abbrev Location := List String

inductive FileEntry where
  | file (content : Bytes)
  | directory
  deriving DecidableEq, Repr

/-- The most bytes that a name can have. -/
def maxNameLength : Nat := 255

/-- The most bytes that a path can have. -/
def maxPathLength : Nat := 4095

/-- Why a path leads nowhere whatever is stored, if that is so. -/
def Path.fault? (path : Path) : Option FileError :=
  if '\x00' ∈ path.text.toList then some .zeroByteInName
  else if path.text = "" then some .notFound
  else if maxPathLength < path.text.utf8ByteSize then some .nameTooLong
  else none

structure FileTree where
  entries : List (Location × FileEntry)
  workingDirectory : Location
  deriving DecidableEq, Repr

namespace FileTree

/-- What is stored at a location. The root is always a directory. -/
def entry? (tree : FileTree) (location : Location) : Option FileEntry :=
  if location.isEmpty then some .directory else tree.entries.lookup location

def store (tree : FileTree) (location : Location) (entry : FileEntry) : FileTree :=
  { tree with entries := (location, entry) :: tree.entries.filter fun other => other.1 ≠ location }

/-- Forgets what is stored at a location. -/
def erase (tree : FileTree) (location : Location) : FileTree :=
  { tree with entries := tree.entries.filter fun other => other.1 ≠ location }

/-- Takes one step of a path. -/
def enter (tree : FileTree) (here : Location) (piece : String) : Except FileError Location :=
  match tree.entry? here with
  | none => .error .notFound
  | some (.file _) => .error .notADirectory
  | some .directory =>
    if piece = "" ∨ piece = "." then .ok here
    else if piece = ".." then .ok here.dropLast
    else if maxNameLength < piece.utf8ByteSize then .error .nameTooLong
    else .ok (here ++ [piece])

/-- Follows the pieces of a path. Nothing has to be stored where it ends. -/
def follow (tree : FileTree) (start : Location) (pieces : List String) :
    Except FileError Location :=
  pieces.foldlM tree.enter start

/-- Where a path starts. -/
def startOf (tree : FileTree) (path : Path) : Location :=
  if path.isAbsolute then [] else tree.workingDirectory

/-- The location a path leads to. -/
def locate (tree : FileTree) (path : Path) : Except FileError Location :=
  match path.fault? with
  | some fault => .error fault
  | none => tree.follow (tree.startOf path) path.pieces

def isDirectory (tree : FileTree) (path : Path) : Bool :=
  match tree.locate path with
  | .ok location => tree.entry? location = some .directory
  | .error _ => false

def isFile (tree : FileTree) (path : Path) : Bool :=
  match tree.locate path with
  | .ok location =>
    match tree.entry? location with
    | some (.file _) => true
    | _ => false
  | .error _ => false

/-- The file that a path leads to: where it is, and what it holds. -/
def findFile (tree : FileTree) (path : Path) : Except FileError (Location × Bytes) :=
  match tree.locate path with
  | .error fault => .error fault
  | .ok location =>
    match tree.entry? location with
    | none => .error .notFound
    | some .directory => .error .isADirectory
    | some (.file content) => .ok (location, content)

def read (tree : FileTree) (path : Path) : Except FileError Bytes :=
  (tree.findFile path).map (·.2)

/-- The names of what is stored in a directory, in no particular order. -/
def namesIn (tree : FileTree) (location : Location) : List String :=
  tree.entries.filterMap fun (place, _) =>
    match place.getLast? with
    | some name => if place = location ++ [name] then some name else none
    | none => none

/-- The names in a directory. -/
def names (tree : FileTree) (path : Path) : Except FileError (List String) :=
  (tree.locate path).map tree.namesIn

/-- The names of the files in a directory. A name counts only if the path with that name behind it
leads to the file, so that it can be read. -/
def fileNames (tree : FileTree) (path : Path) : Except FileError (List String) :=
  match tree.locate path with
  | .error fault => .error fault
  | .ok location =>
    .ok ((tree.namesIn location).filter fun name => tree.isFile (path.join name))

/-- A change of a file tree. -/
abbrev Change := EStateM FileError FileTree

/-- Makes one directory in a directory that is there. -/
def makeDirectory (path : Path) : Change Unit := fun tree =>
  match tree.locate path with
  | .error fault => .error fault tree
  | .ok location =>
    match tree.entry? location with
    | some _ => .error .alreadyExists tree
    | none => .ok () (tree.store location .directory)

/-- Where a path can have a file, over one that may be there. -/
def placeFor (tree : FileTree) (path : Path) : Except FileError Location :=
  let reversed := path.pieces.reverse
  let named := reversed.dropWhile (· = "")
  match path.fault?, named with
  | some fault, _ => .error fault
  | none, [] => .error .busy
  | none, last :: above =>
    match tree.follow (tree.startOf path) above.reverse with
    | .error fault => .error fault
    | .ok directory =>
      match tree.enter directory last with
      | .error fault => .error fault
      | .ok location =>
        if last = "." ∨ last = ".." then .error .busy
        else if named ≠ reversed then .error .notADirectory
        else if tree.entry? location = some .directory then .error .isADirectory
        else .ok location

/-! ### Drafts

A draft is a file beside the place of another, into whose place it is moved when it is complete. -/

/-- The name of a draft, by its number. -/
def draftName (number : Nat) : String :=
  ".tmp" ++ String.ofList (padZeros 6 (Nat.toDigits 10 number))

/-- Whether a path leads where nothing is. -/
def isFree (tree : FileTree) (path : Path) : Bool :=
  match tree.locate path with
  | .ok location => Option.isNone <| tree.entry? location
  | .error _ => false

/-- The first path of a draft in a directory that is free. -/
def draftPath (tree : FileTree) (directory : Path) : Path :=
  let drafts := (List.range (tree.entries.length + 1)).map fun number =>
    directory.join (draftName number)
  (drafts.find? tree.isFree).getD (directory.join (draftName 0))

/-- Makes an empty draft in a directory. -/
def createDraft (directory : Path) : Change Path := fun tree =>
  let draft := tree.draftPath directory
  match tree.locate draft with
  | .error fault => .error fault tree
  | .ok location =>
    match tree.entry? location with
    | some _ => .error .alreadyExists tree
    | none => .ok draft (tree.store location (.file []))

/-- Writes the whole content of a draft. -/
def fillDraft (draft : Path) (content : Bytes) : Change Unit := fun tree =>
  match tree.findFile draft with
  | .error fault => .error fault tree
  | .ok (location, _) => .ok () (tree.store location (.file content))

/-- Moves a draft into the place of a file. -/
def moveDraft (draft path : Path) : Change Unit := fun tree =>
  match tree.findFile draft with
  | .error fault => .error fault tree
  | .ok (location, content) =>
    match tree.placeFor path with
    | .error fault => .error fault tree
    | .ok place => .ok () ((tree.erase location).store place (.file content))

/-- Removes a draft, if it is there. -/
def discardDraft (tree : FileTree) (draft : Path) : FileTree :=
  match tree.findFile draft with
  | .error _ => tree
  | .ok (location, _) => tree.erase location

end FileTree

end CubePatch
