import CubePatch.Code.StaticWrite
import CubePatch.Image.Cursor
import CubePatch.Log.Event

/-!
# Absorbing codes into an image

A static write outside of every condition can be made in the image ahead of time, if each of its
writes lies inside one section. It is then absorbed: made in the image and dropped from the list.
Every other code stays in the list as it is and touches nothing. Codes are looked at in order, and a
fault ends the pass with the writes of the codes before it made.
-/
namespace CubePatch

/-- What became of a code. -/
inductive Fate where
  | applied
  /-- A static write that leaves the sections of the image. -/
  | unmapped
  | kept
  deriving DecidableEq, Repr

inductive AbsorbError where
  | serial (fault : SerialFault)
  | image (fault : ImageError)
  deriving DecidableEq, Repr

def AbsorbError.message : AbsorbError → String
  | .serial fault => fault.message
  | .image fault => fault.message

/-- Whether every write lies inside one section. -/
def Image.isMapped (image : Image) (writes : List Write) : Bool :=
  writes.all fun write => (image.resolveRange write.address write.bytes.length).isOk

/-- Makes writes in order. -/
def Image.applyWrites : List Write → Edit ImageError Unit
  | [] => pure ()
  | first :: rest => do
    let _ ← Image.seek first.address
    Image.write first.bytes
    Image.applyWrites rest

/-- The number of open conditions after a code. An end without a condition changes nothing. -/
def depthAfter (depth : Nat) (kind : CodeKind) : Nat :=
  match kind with
  | .condition => depth + 1
  | .endCondition => depth - 1
  | _ => depth

/-- Makes the writes of a code in the image if they can be made ahead of time. -/
def absorbCode (depth : Nat) (code : Code) : Edit AbsorbError Fate := fun image =>
  if depth = 0 then
    match code.staticWrites? with
    | .error fault => .error (.serial fault) image
    | .ok none => .ok .kept image
    | .ok (some writes) =>
      if image.isMapped writes then
        match Image.applyWrites writes image with
        | .ok () written => .ok .applied written
        | .error fault written => .error (.image fault) written
      else .ok .unmapped image
  else .ok .kept image

/-- What a pass over a code list came to. -/
structure Absorption where
  image : Image
  /-- The codes that were looked at, up to the fault if there is one. -/
  fates : List (Code × Fate)
  fault : Option AbsorbError

/-- Passes over codes at a given number of open conditions. -/
def absorbCodes (depth : Nat) (codes : List Code) (image : Image) : Absorption :=
  match codes with
  | [] => ⟨image, [], none⟩
  | code :: rest =>
    match absorbCode depth code image with
    | .error fault image => ⟨image, [], some fault⟩
    | .ok fate image =>
      let later := absorbCodes (depthAfter depth code.kind) rest image
      { later with fates := (code, fate) :: later.fates }

/-- Absorbs what can be absorbed of a code list. -/
def CodeList.absorb (list : CodeList) (image : Image) : Absorption :=
  absorbCodes 0 list.codes image

namespace Absorption

/-- The codes that were not absorbed. -/
def remaining (absorption : Absorption) : CodeList :=
  .ofCodes ((absorption.fates.filter fun entry => entry.2 ≠ .applied).map (·.1))

def countOf (absorption : Absorption) (fate : Fate) : Nat :=
  absorption.fates.countP fun entry => entry.2 = fate

def counts (absorption : Absorption) : AbsorptionCounts :=
  ⟨absorption.countOf .applied, absorption.countOf .unmapped, absorption.countOf .kept⟩

/-- What is told of a code. -/
def eventsOf (code : Code) : Fate → List Event
  | .applied => [.codeApplied code.line.opcode code.address]
  | .unmapped => [.codeUnmapped code.line.opcode code.address]
  | .kept => []

/-- What the pass tells. The codes are counted only if there was no fault. -/
def events (absorption : Absorption) : List Event :=
  absorption.fates.flatMap (fun entry => eventsOf entry.1 entry.2) ++
    match absorption.fault with
    | some _ => []
    | none => [.codesCounted absorption.counts]

end Absorption

end CubePatch
