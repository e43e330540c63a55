/-!
# Splitting text

Text is handled as a list of characters. Splitting at a character keeps empty pieces, so joining the
pieces gives the text back.
-/
namespace CubePatch

/-- The pieces between the occurrences of a character. -/
def splitAtEach (separator : Char) (text : List Char) : List (List Char) :=
  match _found : text.dropWhile (· ≠ separator) with
  | [] => [text]
  | _ :: rest => text.takeWhile (· ≠ separator) :: splitAtEach separator rest
termination_by text.length
decreasing_by
  have parts := congrArg List.length (List.takeWhile_append_dropWhile (p := (· ≠ separator))
    (l := text))
  simp only [_found, List.length_append, List.length_cons] at parts
  omega

theorem splitAtEach_ne_nil (separator : Char) (text : List Char) :
    splitAtEach separator text ≠ [] := by
  unfold splitAtEach
  split <;> simp

/-- Takes a carriage return off the end of a line. -/
def dropReturn (line : List Char) : List Char :=
  if line.getLast? = some '\r' then line.dropLast else line

/-- The lines of a text. A line ends with a line feed, before which one carriage return is dropped;
what follows the last line feed is a line if it is not empty. -/
def lines (text : List Char) : List (List Char) :=
  let pieces := splitAtEach '\n' text
  let last := pieces.getLast?.getD []
  pieces.dropLast.map dropReturn ++ if last.isEmpty then [] else [last]

/-- Whether a character is white space: the ASCII blanks, the next-line and no-break characters, and
the spaces and separators of the general punctuation and symbol blocks. -/
def isBlankChar (c : Char) : Bool :=
  (0x09 ≤ c.toNat && c.toNat ≤ 0x0D) ||
    c.toNat ∈ [0x20, 0x85, 0xA0, 0x1680, 0x2028, 0x2029, 0x202F, 0x205F, 0x3000] ||
    (0x2000 ≤ c.toNat && c.toNat ≤ 0x200A)

def isBlankLine (line : List Char) : Bool :=
  line.all isBlankChar

end CubePatch
