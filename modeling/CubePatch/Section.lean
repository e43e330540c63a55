import CubePatch.Arithmetic
import CubePatch.Bytes

/-!
# Sections of an executable

A section is a run of file bytes and the address it is loaded at. Its end is a natural number, one
past its last address, so a section that reaches the top of the address space needs no special
case.
-/
namespace CubePatch

inductive SectionKind where
  | text
  | data
  deriving DecidableEq, Repr

namespace SectionKind

def name : SectionKind → String
  | .text => "text"
  | .data => "data"

/-- How many sections of this kind a header has room for. -/
def capacity : SectionKind → Nat
  | .text => 7
  | .data => 11

/-- The number of the first header slot of this kind. Data slots are counted behind text slots. -/
def firstSlot : SectionKind → Nat
  | .text => 0
  | .data => 7

def slots (kind : SectionKind) : List Nat :=
  List.range' kind.firstSlot kind.capacity

end SectionKind

structure Section where
  kind : SectionKind
  slot : Nat
  fileOffset : UInt32
  loadAddress : UInt32
  size : UInt32
  deriving DecidableEq, Repr

namespace Section

/-- One past the last address. -/
def stop (area : Section) : Nat :=
  area.loadAddress.toNat + area.size.toNat

/-- One past the last file byte. -/
def fileStop (area : Section) : Nat :=
  area.fileOffset.toNat + area.size.toNat

def Contains (area : Section) (address : UInt32) : Prop :=
  area.loadAddress.toNat ≤ address.toNat ∧ address.toNat < area.stop

instance (area : Section) (address : UInt32) : Decidable (area.Contains address) :=
  inferInstanceAs (Decidable (_ ∧ _))

/-- Whether `length` bytes from `start` on share one with the section. An empty range counts as the
byte at its start, an empty section shares nothing. -/
def Meets (area : Section) (start length : Nat) : Prop :=
  area.size ≠ 0 ∧ start < area.stop ∧ area.loadAddress.toNat < start + max length 1

instance (area : Section) (start length : Nat) : Decidable (area.Meets start length) :=
  inferInstanceAs (Decidable (_ ∧ _))

/-- The file offset of an address inside the section, if it is a word. -/
def fileOffsetOf? (area : Section) (address : UInt32) : Option UInt32 :=
  if area.Contains address then
    (checkedSum area.fileOffset (address - area.loadAddress)).toOption
  else none

end Section

end CubePatch
