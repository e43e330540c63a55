/-!
# Padding

Text in columns is padded with spaces. Text that is too long for its column is never cut.
-/
namespace CubePatch

/-- The spaces a text lacks to fill a column. -/
def padding (width : Nat) (text : String) : String :=
  String.ofList (List.replicate (width - text.length) ' ')

/-- Text at the left of a column. -/
def padRight (width : Nat) (text : String) : String :=
  text ++ padding width text

/-- Text at the right of a column. -/
def padLeft (width : Nat) (text : String) : String :=
  padding width text ++ text

end CubePatch
