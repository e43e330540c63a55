import CubePatch.Text.Split

/-!
# Paths

A path is the text the user wrote. It is shown as it was written and taken apart only where its
parts matter: slashes that repeat or end it and single dots inside it name nothing, so they are no
components.
-/
namespace CubePatch

structure Path where
  text : String
  deriving DecidableEq, Repr

inductive PathComponent where
  | root
  | current
  | parent
  | named (name : String)
  deriving DecidableEq, Repr

/-- The part of a file name behind its last dot. A dot in front of a name starts no extension. -/
def extensionOf? (name : String) : Option String :=
  let reversed := name.toList.reverse
  match reversed.dropWhile (· ≠ '.') with
  | _ :: _ :: _ => some (String.ofList (reversed.takeWhile (· ≠ '.')).reverse)
  | _ => none

namespace Path

/-- What stands between the slashes, empty pieces included. -/
def pieces (path : Path) : List String :=
  (splitAtEach '/' path.text.toList).map String.ofList

def isAbsolute (path : Path) : Bool :=
  path.text.toList.head? = some '/'

/-- The components behind the first piece. -/
def laterComponents (pieces : List String) : List PathComponent :=
  pieces.filterMap fun piece =>
    if piece = "" ∨ piece = "." then none
    else if piece = ".." then some .parent
    else some (.named piece)

/-- The components of a path. A single dot counts only in front of a relative path. -/
def components (path : Path) : List PathComponent :=
  if path.isAbsolute then .root :: laterComponents path.pieces
  else
    match path.pieces with
    | "." :: rest => .current :: laterComponents rest
    | pieces => laterComponents pieces

/-- The last component, if it is a name. -/
def fileName? (path : Path) : Option String :=
  match path.components.getLast? with
  | some (.named name) => some name
  | _ => none

def extension? (path : Path) : Option String :=
  path.fileName?.bind extensionOf?

/-- The path of some pieces. An empty piece alone is what stands in front of the root. -/
def ofPieces (pieces : List String) : Path :=
  if pieces = [""] then ⟨"/"⟩ else ⟨"/".intercalate pieces⟩

/-- The path of some pieces and those above it, with the pieces given from the last one on. A piece
that names nothing ends no path unless it is the first piece. -/
def chain : List String → List Path
  | [] => []
  | last :: above =>
    if (last = "" ∨ last = ".") ∧ above ≠ [] then chain above
    else ofPieces (last :: above).reverse :: chain above

/-- The directories above a path, the nearest first, as far as the path names them. -/
def ancestors (path : Path) : List Path :=
  (chain path.pieces.reverse).tail

/-- The directory above a path. -/
def above (path : Path) : Path :=
  path.ancestors.head?.getD ⟨"."⟩

/-- The directories a file needs, the nearest first. A path that names none is taken from the
working directory. -/
def directories (path : Path) : List Path :=
  path.above :: path.ancestors.tail

/-- The path of a name inside a directory. -/
def join (directory : Path) (name : String) : Path :=
  if directory.text = "" ∨ directory.text.toList.getLast? = some '/' then ⟨directory.text ++ name⟩
  else ⟨directory.text ++ "/" ++ name⟩

end Path

end CubePatch
