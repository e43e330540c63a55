import CubePatch.File.Path

/-!
# Where the patched image goes
-/
namespace CubePatch

/-- Used where the path of an image ends with no name. -/
def defaultImageName : String := "main.dol"

/-- Where patched images go if the user does not say so. -/
def defaultDirectory : Path := ⟨"geckoloader-build"⟩

/-- A destination with an extension is the file itself, any other is a directory for a file with the
name of the image. -/
def destination (image : Path) (given : Option Path) : Path :=
  let name := image.fileName?.getD defaultImageName
  match given with
  | none => defaultDirectory.join name
  | some path => if path.extension?.isSome then path else path.join name

end CubePatch
