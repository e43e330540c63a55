import CubePatch.Code.TextList
import CubePatch.CodeList
import CubePatch.File.Error
import CubePatch.Log.Logged
import CubePatch.Text.Encoding

/-!
# Code sources

A code list is made from a text, from a binary list, or from all of them in a directory, in the
order of their paths. The codes of a directory are put one behind the other and read as one list, so
a terminator among them ends it for all files behind.
-/
namespace CubePatch

inductive CodeFormat where
  | text
  | binary
  deriving DecidableEq, Repr

/-- The format of a file, by its extension in any case of its ASCII letters. -/
def CodeFormat.ofPath? (path : Path) : Option CodeFormat :=
  match path.extension?.map (·.map Char.toLower) with
  | some "txt" => some .text
  | some "gct" => some .binary
  | _ => none

/-- A file of codes as it was read; a file of no known format is not read. -/
inductive CodeFile where
  | content (path : Path) (format : CodeFormat) (bytes : Except FileError Bytes)
  | unsupported (path : Path)

def CodeFile.path : CodeFile → Path
  | .content path _ _ => path
  | .unsupported path => path

inductive CodeSource where
  | single (file : CodeFile)
  | directory (path : Path) (files : Except FileError (List CodeFile))

def CodeSource.path : CodeSource → Path
  | .single file => file.path
  | .directory path _ => path

inductive SourceError where
  | unreadable (path : Path) (fault : FileError)
  | unsupported (path : Path)
  | malformed (path : Path) (fault : CodeFault)
  | empty (path : Path)
  | codes (fault : CodeFault)
  deriving DecidableEq, Repr

namespace SourceError

def message : SourceError → String
  | .unreadable path fault => "failed to read " ++ path.text ++ ": " ++ fault.message
  | .unsupported path => path.text ++ " is not a .txt or .gct file"
  | .malformed path fault => path.text ++ " is not a valid .gct file: " ++ fault.message
  | .empty path => "no gecko codes found in " ++ path.text
  | .codes fault => fault.message

/-- Whether a file could not be read, as opposed to being no good. -/
def isFileAccess : SourceError → Bool
  | .unreadable .. => true
  | _ => false

end SourceError

namespace CodeList

/-- A list that was read, with a word on how many bytes behind its terminator are ignored. -/
def ofReading (reading : Except CodeFault (CodeList × Bytes)) : Logged CodeFault CodeList := do
  let (list, behind) ← .ofExcept reading
  .tellIf (behind ≠ []) (.bytesIgnored behind.length)
  return list

/-- Reads a code list. -/
def read (bytes : Bytes) : Logged CodeFault CodeList :=
  ofReading (ofBytes bytes)

/-- Reads bare codes as a list. -/
def readBody (body : Bytes) : Logged CodeFault CodeList :=
  ofReading (ofBody body)

/-- Reads bare codes in front of the codes of a list. -/
def readBefore (codes : Bytes) (list : CodeList) : Logged CodeFault CodeList :=
  ofReading (list.prepend codes)

end CodeList

/-- The bare codes of a text. -/
def textBody (selection : TextSelection) (bytes : Bytes) : Bytes :=
  (codesOfText selection (decodeText bytes)).flatMap Line.bytes

/-- The bare codes of a file. -/
def CodeFile.body (selection : TextSelection) : CodeFile → Logged SourceError Bytes
  | .unsupported path => .fail (.unsupported path)
  | .content path _ (.error fault) => .fail (.unreadable path fault)
  | .content _ .text (.ok bytes) => do
    .tellIf (isWellFormedText bytes = false) .legacyEncoding
    return textBody selection bytes
  | .content path .binary (.ok bytes) => do
    let list ← (CodeList.read bytes).mapError (.malformed path)
    return list.body

/-- The bare codes of the files of a directory. Files of no known format are passed over. -/
def bodyOfFiles (selection : TextSelection) : List CodeFile → Logged SourceError Bytes
  | [] => return []
  | .unsupported path :: rest => do
    .tell (.fileSkipped path)
    bodyOfFiles selection rest
  | file :: rest => do
    let first ← file.body selection
    let later ← bodyOfFiles selection rest
    return first ++ later

/-- Files in the order of their paths. -/
def sortFiles (files : List CodeFile) : List CodeFile :=
  files.mergeSort fun first second => !decide (second.path.text < first.path.text)

namespace CodeSource

/-- The bare codes of a source. -/
def body (selection : TextSelection) : CodeSource → Logged SourceError Bytes
  | .single file => file.body selection
  | .directory path (.error fault) => .fail (.unreadable path fault)
  | .directory _ (.ok files) => bodyOfFiles selection (sortFiles files)

/-- The code list of a source, which has to hold some bytes of codes. -/
def codeList (selection : TextSelection) (source : CodeSource) : Logged SourceError CodeList := do
  let codes ← source.body selection
  if codes.isEmpty then .fail (.empty source.path)
  else
    let list ← (CodeList.readBody codes).mapError .codes
    .tell (.codeListRead source.path list.size)
    return list

end CodeSource

end CubePatch
