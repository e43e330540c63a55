import CubePatch.Code.Line
import CubePatch.Hexadecimal

/-!
# Code lists

A code list is a sequence of codes between a fixed first line and a terminator. It is held as its
codes, each with exactly the bytes its first line announces, so the codes tile the list: a list that
was read is the list that is written, and taking codes away or putting codes in front cannot break
it.
-/
namespace CubePatch

/-- A code: its first line and the bytes that line announces. A terminator is no code. -/
structure Code where
  line : Line
  payload : Bytes
  length_payload : payload.length = line.payloadLength
  running : line.kind ≠ .terminator
  deriving DecidableEq

namespace Code

def bytes (code : Code) : Bytes :=
  code.line.bytes ++ code.payload

@[simp] theorem length_bytes (code : Code) : code.bytes.length = code.line.codeLength := by
  simp [bytes, Line.codeLength, code.length_payload]

def kind (code : Code) : CodeKind :=
  code.line.kind

def address (code : Code) : UInt32 :=
  code.line.address

def operand (code : Code) : UInt32 :=
  code.line.operand

end Code

/-- Why bytes are no code list. -/
inductive CodeFault where
  | missingMagic
  | truncated (offset needed available : Nat)
  | missingTerminator
  deriving DecidableEq, Repr

def CodeFault.message : CodeFault → String
  | .missingMagic => "code list does not start with the 00D0C0DE 00D0C0DE magic"
  | .truncated offset needed available =>
    "record at offset " ++ hex offset ++ " needs " ++ hex needed ++ " bytes but only " ++
      hex available ++ " remain"
  | .missingTerminator => "code list has no F0000000 00000000 terminator"

/-- Codes and the line that ends them. -/
structure CodeList where
  codes : List Code
  closing : Line
  closes : closing.kind = .terminator
  deriving DecidableEq

namespace CodeList

/-- The line a code list starts with. -/
def magic : Bytes :=
  [0x00, 0xD0, 0xC0, 0xDE, 0x00, 0xD0, 0xC0, 0xDE]

/-- The line that ends a code list made here. -/
def terminator : Line := ⟨0xF0000000, 0⟩

/-- The codes with nothing around them. -/
def body (list : CodeList) : Bytes :=
  list.codes.flatMap Code.bytes

def bytes (list : CodeList) : Bytes :=
  magic ++ list.body ++ list.closing.bytes

def size (list : CodeList) : Nat :=
  list.bytes.length

/-- A list of the given codes. -/
def ofCodes (codes : List Code) : CodeList :=
  ⟨codes, terminator, by decide⟩

/-- Whether there is no code in the list. -/
def isEmpty (list : CodeList) : Bool :=
  list.codes.isEmpty

/-- Codes with the offsets at which they start, the first one at `offset`. -/
def placedFrom (offset : Nat) : List Code → List (Nat × Code)
  | [] => []
  | code :: rest => (offset, code) :: placedFrom (offset + code.line.codeLength) rest

/-- The codes of a list with their offsets in it. -/
def placed (list : CodeList) : List (Nat × Code) :=
  placedFrom magic.length list.codes

/-- What stands at the front of some bytes: a code or the end of the list, and the bytes behind. -/
inductive Front where
  | code (code : Code) (rest : Bytes)
  | closing (line : Line) (closes : line.kind = .terminator) (rest : Bytes)

/-- Reads the code or the terminator at the front of some bytes, which stand at `offset`. -/
def front (offset : Nat) (bytes : Bytes) : Except CodeFault Front :=
  match Line.take? bytes with
  | none =>
    if bytes.isEmpty then .error .missingTerminator
    else .error (.truncated offset 8 bytes.length)
  | some (line, rest) =>
    if closes : line.kind = .terminator then .ok (.closing line closes rest)
    else if whole : (rest.take line.payloadLength).length = line.payloadLength then
      .ok (.code ⟨line, rest.take line.payloadLength, whole, closes⟩ (rest.drop line.payloadLength))
    else .error (.truncated offset line.codeLength bytes.length)

theorem length_lt_of_front {offset : Nat} {bytes rest : Bytes} {code : Code}
    (found : front offset bytes = .ok (.code code rest)) : rest.length < bytes.length := by
  unfold front at found
  split at found
  · split at found <;> cases found
  · next line behind taken =>
    have length := Line.length_of_take? taken
    split at found
    · cases found
    · split at found
      · simp only [Except.ok.injEq, Front.code.injEq] at found
        rw [← found.2, List.length_drop]
        omega
      · cases found

/-- Reads codes up to a terminator and gives the bytes behind it. -/
def scan (offset : Nat) (bytes : Bytes) : Except CodeFault (CodeList × Bytes) :=
  match _found : front offset bytes with
  | .error fault => .error fault
  | .ok (.closing line closes rest) => .ok (⟨[], line, closes⟩, rest)
  | .ok (.code code rest) =>
    match scan (offset + code.bytes.length) rest with
    | .error fault => .error fault
    | .ok (list, behind) => .ok ({ list with codes := code :: list.codes }, behind)
termination_by bytes.length
decreasing_by exact length_lt_of_front _found

/-- Reads a code list and gives the bytes behind its terminator. -/
def ofBytes (bytes : Bytes) : Except CodeFault (CodeList × Bytes) :=
  if magic.isPrefixOf bytes then scan magic.length (bytes.drop magic.length)
  else .error .missingMagic

/-- Codes between the first line and a terminator. -/
def frame (body : Bytes) : Bytes :=
  magic ++ body ++ terminator.bytes

/-- Reads bare codes. A terminator among them ends the list early. -/
def ofBody (body : Bytes) : Except CodeFault (CodeList × Bytes) :=
  ofBytes (frame body)

/-- Puts bare codes in front of the codes of a list. -/
def prepend (list : CodeList) (codes : Bytes) : Except CodeFault (CodeList × Bytes) :=
  ofBody (codes ++ list.body)

end CodeList

end CubePatch
