import CubePatch.Text.Escape
import CubePatch.Text.Shapeless

/-!
# Quoted text

Text in a message about arguments stands in double quotes. Double quotes, backslashes, and
characters that would not show are escaped, so the end of each argument can be told.
-/
namespace CubePatch

/-- How a character is written between quotes. -/
def quoteChar (c : Char) : List Char :=
  if c = '\x00' then ['\\', '0']
  else if c = '\t' then ['\\', 't']
  else if c = '\r' then ['\\', 'r']
  else if c = '\n' then ['\\', 'n']
  else if c = '\\' ∨ c = '"' then ['\\', c]
  else if isShapeless c then numberEscape c
  else [c]

def quote (text : String) : String :=
  String.ofList (['"'] ++ text.toList.flatMap quoteChar ++ ['"'])

end CubePatch
