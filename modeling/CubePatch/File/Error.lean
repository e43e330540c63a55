/-!
# Failures of file access
-/
namespace CubePatch

inductive FileError where
  | notFound
  | notADirectory
  | isADirectory
  | alreadyExists
  | busy
  /-- A name, or a whole path, has more bytes than the system takes. -/
  | nameTooLong
  /-- A path with a zero byte cannot be handed to the system. -/
  | zeroByteInName
  /-- Any other failure, in the words of the system. -/
  | other (description : String)
  deriving DecidableEq, Repr

def FileError.message : FileError → String
  | .notFound => "No such file or directory (os error 2)"
  | .notADirectory => "Not a directory (os error 20)"
  | .isADirectory => "Is a directory (os error 21)"
  | .alreadyExists => "File exists (os error 17)"
  | .busy => "Device or resource busy (os error 16)"
  | .nameTooLong => "File name too long (os error 36)"
  | .zeroByteInName => "file name contained an unexpected NUL byte"
  | .other description => description

end CubePatch
