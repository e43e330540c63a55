import CubePatch.Hexadecimal

/-!
# Escapes

A character that must not stand in a message as it is gives way to an escape that says which it was.
This holds for every line of the log: the names of files stand in it, and a name could give commands
to the terminal that shows it.
-/
namespace CubePatch

/-- A character by two digits of its number. -/
def byteEscape (c : Char) : List Char :=
  ['\\', 'x'] ++ padZeros 2 (hexDigits c.toNat)

/-- A character by the digits of its number, between braces. -/
def numberEscape (c : Char) : List Char :=
  ['\\', 'u', '\x7b'] ++ hexDigits c.toNat ++ ['\x7d']

/-- Escape, bell, backspace, form feed and delete, by which every terminal takes commands. -/
def isTerminalControl (c : Char) : Bool :=
  ['\x1b', '\x07', '\x08', '\x0c', '\x7f'].contains c

/-- The upper controls, by which some terminals take commands. -/
def isUpperControl (c : Char) : Bool :=
  decide (0x80 ≤ c.toNat ∧ c.toNat ≤ 0x9F)

def escapeControl (c : Char) : List Char :=
  if isTerminalControl c then byteEscape c
  else if isUpperControl c then numberEscape c
  else [c]

/-- Text that gives no commands to a terminal. Line breaks and tabs stay. -/
def escapeControls (text : String) : String :=
  String.ofList (text.toList.flatMap escapeControl)

end CubePatch
