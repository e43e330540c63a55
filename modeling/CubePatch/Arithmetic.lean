/-!
# Checked arithmetic

Most sums of addresses start again from zero at the top of the address space. A few are meant to be
exact. Where one of these is no word, the computation it is made for stops.
-/
namespace CubePatch

/-- What was computed where a result has no room. -/
inductive Overflow where
  | sum
  | difference
  deriving DecidableEq, Repr

def Overflow.message : Overflow → String
  | .sum => "attempt to add with overflow"
  | .difference => "attempt to subtract with overflow"

/-- The sum of two words, if it is one. -/
def checkedSum (left right : UInt32) : Except Overflow UInt32 :=
  if left.toNat + right.toNat < UInt32.size then .ok (left + right) else .error .sum

theorem checkedSum_of_lt {left right : UInt32} (room : left.toNat + right.toNat < UInt32.size) :
    checkedSum left right = .ok (left + right) :=
  if_pos room

theorem checkedSum_of_le {left right : UInt32} (full : UInt32.size ≤ left.toNat + right.toNat) :
    checkedSum left right = .error .sum :=
  if_neg (Nat.not_lt.mpr full)

/-- The difference of two words, if it is one. -/
def checkedDifference (left right : UInt32) : Except Overflow UInt32 :=
  if right ≤ left then .ok (left - right) else .error .difference

theorem checkedDifference_of_le {left right : UInt32} (order : right ≤ left) :
    checkedDifference left right = .ok (left - right) :=
  if_pos order

theorem checkedDifference_of_not_le {left right : UInt32} (disorder : ¬ right ≤ left) :
    checkedDifference left right = .error .difference :=
  if_neg disorder

/-- One past the last of some bytes, if that has room in 64 bits. -/
def checkedStop (address : UInt32) (length : Nat) : Except Overflow Nat :=
  if address.toNat + length < UInt64.size then .ok (address.toNat + length) else .error .sum

theorem checkedStop_of_lt {address : UInt32} {length : Nat}
    (room : address.toNat + length < UInt64.size) :
    checkedStop address length = .ok (address.toNat + length) :=
  if_pos room

theorem checkedStop_of_le {address : UInt32} {length : Nat}
    (full : UInt64.size ≤ address.toNat + length) : checkedStop address length = .error .sum :=
  if_neg (Nat.not_lt.mpr full)

end CubePatch
