import CubePatch.Build.Destination
import CubePatch.Build.Patch
import CubePatch.File.System

/-!
# Builds

A build reads its input files, patches the image, and writes it to its destination. All files are
read before anything is written, so what comes of a build depends on the files alone, and a build
that fails has written no file.
-/
namespace CubePatch

structure BuildOptions where
  image : Path
  codes : Path
  handler : Path
  loader : Path
  /-- A file, or a directory for a file with the name of the image. -/
  destination : Option Path
  selection : TextSelection
  settings : PatchSettings
  deriving DecidableEq, Repr

/-- The input files of a build as they were read. -/
structure BuildInputs where
  image : Except FileError Bytes
  codes : CodeSource
  handler : Except FileError Bytes
  loader : Except FileError Bytes

/-- Reads a file of codes, if its format is known. -/
def readCodeFile [Monad m] (files : FileSystem m) (path : Path) : m CodeFile := do
  match CodeFormat.ofPath? path with
  | some format => return .content path format (← files.read path)
  | none => return .unsupported path

def readCodeSource [Monad m] (files : FileSystem m) (path : Path) : m CodeSource := do
  if ← files.isDirectory path then
    match ← files.names path with
    | .error fault => return .directory path (.error fault)
    | .ok names =>
      let names ← files.filesAmong path names
      return .directory path (.ok (← names.mapM fun name => readCodeFile files (path.join name)))
  else return .single (← readCodeFile files path)

def readInputs [Monad m] (files : FileSystem m) (options : BuildOptions) : m BuildInputs := do
  let image ← files.read options.image
  let codes ← readCodeSource files options.codes
  let handler ← files.read options.handler
  let loader ← files.read options.loader
  return ⟨image, codes, handler, loader⟩

/-- Patches the image of some inputs. The first input that is no good decides the failure. -/
def patchInputs (options : BuildOptions) (inputs : BuildInputs) :
    Logged BuildError (Image × BuildReport) := do
  let bytes ← .ofExcept (inputs.image.mapError (.file options.image))
  let image ← .ofExcept ((Image.ofBytes bytes).mapError .image)
  let codes ← (inputs.codes.codeList options.selection).mapError .source
  let bytes ← .ofExcept (inputs.handler.mapError (.file options.handler))
  let handler ← .ofExcept ((Handler.ofBytes bytes).mapError .payload)
  let bytes ← .ofExcept (inputs.loader.mapError (.file options.loader))
  let loader ← .ofExcept ((Bootstrap.ofBytes bytes).mapError .payload)
  .tell (.tokensFound loader.tokens)
  patchImage image codes handler loader options.settings

/-- Reads, patches and writes. -/
def build [Monad m] (files : FileSystem m) (options : BuildOptions) :
    m (Logged BuildError (Path × BuildReport)) := do
  let inputs ← readInputs files options
  let patched := patchInputs options inputs
  match patched.outcome with
  | .error fault => return ⟨patched.events, .error fault⟩
  | .ok (image, report) =>
    let path := destination options.image options.destination
    match ← files.replace path image.bytes with
    | .error fault => return ⟨patched.events, .error (.file path fault)⟩
    | .ok () =>
      return ⟨patched.events ++ [.fileWritten path image.file.size], .ok (path, report)⟩

end CubePatch
