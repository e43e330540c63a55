import CubePatch.CommandLine.Run

/-!
# The program

Gives a run the files of the machine, prints what the run leaves, and ends with its exit code.
-/
namespace CubePatch

/-- The failure of a file access, by the number the system gives it. Some numbers come negated. -/
def FileError.ofNumber (number : UInt32) (details : String) : FileError :=
  match min number (0 - number) with
  | 2 => .notFound
  | 16 => .busy
  | 17 => .alreadyExists
  | 20 => .notADirectory
  | 21 => .isADirectory
  | 36 => .nameTooLong
  | number => .other (details ++ " (os error " ++ toString number ++ ")")

def FileError.ofSystem (fault : IO.Error) : FileError :=
  match fault with
  | .alreadyExists _ number details | .invalidArgument _ number details
  | .permissionDenied _ number details | .resourceExhausted _ number details
  | .inappropriateType _ number details | .noSuchThing _ number details
  | .noFileOrDirectory _ number details | .interrupted _ number details
  | .otherError number details | .resourceBusy number details | .resourceVanished number details
  | .unsupportedOperation number details | .hardwareFault number details
  | .unsatisfiedConstraints number details | .illegalOperation number details
  | .protocolError number details | .timeExpired number details => .ofNumber number details
  | .unexpectedEof => .other "unexpected end of file"
  | .userError text => .other text

def tryAccess (access : IO α) : IO (Except FileError α) := do
  match ← access.toBaseIO with
  | .ok value => return .ok value
  | .error fault => return .error (.ofSystem fault)

/-- What a path leads to, links followed. -/
def isFile (path : Path) : IO Bool := do
  match ← (System.mkFilePath [path.text]).metadata.toBaseIO with
  | .ok found => return found.type == .file
  | .error _ => return false

/-- Makes an empty file under a name that is drawn. -/
def createDraft (directory : Path) : IO Path := do
  let mark := (← IO.getRandomBytes 8).toList.map hexByteUpper
  let draft := directory.join (".draft" ++ String.join mark)
  let _ ← IO.FS.Handle.mk draft.text .writeNew
  return draft

/-- The files of the machine. -/
def machineFiles : FileSystem IO where
  isDirectory path := (System.mkFilePath [path.text]).isDir
  isFile path := isFile path
  read path := tryAccess do return (← IO.FS.readBinFile path.text).toList
  names path := tryAccess do
    return (← (System.mkFilePath [path.text]).readDir).toList.map (·.fileName)
  makeDirectory path := tryAccess (IO.FS.createDir path.text)
  createDraft directory := tryAccess (createDraft directory)
  fillDraft draft content := tryAccess (IO.FS.writeBinFile draft.text ⟨content.toArray⟩)
  moveDraft draft path := tryAccess (IO.FS.rename draft.text path.text)
  discardDraft draft := try IO.FS.removeFile draft.text catch _ => pure ()

end CubePatch

def main (arguments : List String) : IO UInt32 := do
  let drawn ← IO.getRandomBytes 8
  let entropy := drawn.toList.foldl (fun number byte => number * 256 + byte.toUInt64) 0
  let directory := (← IO.appPath).parent.map fun path => CubePatch.Path.mk path.toString
  let result ← CubePatch.run CubePatch.machineFiles ⟨directory, entropy⟩ arguments
  IO.print result.output
  IO.eprint result.errors
  return UInt32.ofNat result.exitCode
