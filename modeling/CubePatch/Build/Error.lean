import CubePatch.Code.Absorption
import CubePatch.Code.Source
import CubePatch.Payload.Error
import CubePatch.Payload.Hook

/-!
# Failures of a build
-/
namespace CubePatch

inductive BuildError where
  | file (path : Path) (fault : FileError)
  | image (fault : ImageError)
  | source (fault : SourceError)
  | codes (fault : CodeFault)
  | absorption (fault : AbsorbError)
  | hook (fault : HookError)
  | payload (fault : PayloadError)
  deriving DecidableEq, Repr

namespace BuildError

/-- What failed, and then why. -/
def message : BuildError → String
  | .file path fault => "failed to access " ++ path.text ++ ": " ++ fault.message
  | .image fault => "invalid DOL: " ++ fault.message
  | .source fault => "invalid code list: " ++ fault.message
  | .codes fault => "failed to process code list: " ++ fault.message
  | .absorption fault => "failed to process code list: " ++ fault.message
  | .hook fault => "failed to place code handler hook: " ++ fault.message
  | .payload fault => "failed to assemble loader: " ++ fault.message

/-- What stopped the build, if it was stopped rather than told to fail. -/
def overflow? : BuildError → Option Overflow
  | .image (.overflow cause)
  | .absorption (.image (.overflow cause))
  | .hook (.overflow cause)
  | .hook (.image (.overflow cause))
  | .payload (.overflow cause)
  | .payload (.image (.overflow cause)) => some cause
  | _ => none

/-- 1 where a file could not be read or written, 2 where its content or the settings are at fault,
101 where the build was stopped. -/
def exitCode (fault : BuildError) : Nat :=
  match fault with
  | .file .. => 1
  | .source reason => if reason.isFileAccess then 1 else 2
  | _ => if fault.overflow?.isSome then 101 else 2

/-- The last line of a run that fails. -/
def line (fault : BuildError) : String :=
  match fault.overflow? with
  | some cause => cause.message
  | none => "error: " ++ fault.message

end BuildError

end CubePatch
