import CubePatch.Code.Line
import CubePatch.Hexadecimal
import CubePatch.Settings
import CubePatch.Text.Split

/-!
# Code lists as text

A text holds at most one code line per line of text: eight hexadecimal digits, a blank, and eight
more. Two tools write such texts. In one, codes stand below headers that start with `$`, and lines
that start with `*` are notes. In the other, a `*` in front of a code marks it as active. The first
line that is not blank shows which tool wrote the text.
-/
namespace CubePatch

inductive TextDialect where
  | dolphin
  | ocarinaManager
  deriving DecidableEq, Repr

/-- The character between the two words of a code line. -/
def isWordDelimiter (c : Char) : Bool :=
  c = ' ' || c = '\t' || c = '\x0c'

/-- What may stand between a mark and its code. -/
def isMarkSpace (c : Char) : Bool :=
  c = ' ' || (0x09 ≤ c.toNat && c.toNat ≤ 0x0D)

/-- The word that eight hexadecimal digits stand for. -/
def hexWord? (digits : List Char) : Option UInt32 :=
  if digits.length = 8 then
    (digits.mapM hexDigit?).map fun values =>
      UInt32.ofNat (values.foldl (fun number digit => number * 16 + digit) 0)
  else none

/-- The code line that a text starts with. -/
def codeAt? (text : List Char) : Option Line :=
  match text.drop 8 with
  | delimiter :: rest =>
    if isWordDelimiter delimiter then
      match hexWord? (text.take 8), hexWord? (rest.take 8) with
      | some head, some operand => some ⟨head, operand⟩
      | _, _ => none
    else none
  | [] => none

/-- The first code line anywhere in a line of text. -/
def firstCode? : List Char → Option Line
  | [] => none
  | c :: rest =>
    match codeAt? (c :: rest) with
    | some line => some line
    | none => firstCode? rest

/-- The first code line that follows a `*`, with nothing but blanks between them. -/
def firstActiveCode? : List Char → Option Line
  | [] => none
  | c :: rest =>
    if c = '*' then
      match codeAt? (rest.dropWhile isMarkSpace) with
      | some line => some line
      | none => firstActiveCode? rest
    else firstActiveCode? rest

/-- The first code line that does not follow a `$` or a `*` at once. -/
def firstUnmarkedCode? (previous : Option Char) : List Char → Option Line
  | [] => none
  | c :: rest =>
    if previous = some '$' ∨ previous = some '*' then firstUnmarkedCode? (some c) rest
    else
      match codeAt? (c :: rest) with
      | some line => some line
      | none => firstUnmarkedCode? (some c) rest

/-- The dialect of a text, seen from its first line that is not blank. -/
def TextDialect.ofLine (line : List Char) : TextDialect :=
  if line.head? = some '$' ∨ line.head? = some '[' then .dolphin else .ocarinaManager

/-- Headers, notes and group names carry no code. -/
def isHeading (line : List Char) : Bool :=
  line.head? = some '$' || line.head? = some '*' || line.head? = some '['

/-- The code in a line of text. -/
def codeOfLine? (dialect : TextDialect) (selection : TextSelection) (line : List Char) :
    Option Line :=
  match dialect, selection with
  | .dolphin, _ => if isHeading line then none else firstUnmarkedCode? none line
  | .ocarinaManager, .all => firstCode? line
  | .ocarinaManager, .active => firstActiveCode? line

/-- The code lines of a text, in order. -/
def codesOfText (selection : TextSelection) (text : List Char) : List Line :=
  let written := (lines text).filter fun line => !isBlankLine line
  match written with
  | [] => []
  | first :: _ => written.filterMap (codeOfLine? (.ofLine first) selection)

end CubePatch
