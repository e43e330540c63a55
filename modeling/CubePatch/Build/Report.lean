import CubePatch.Log.Event

/-!
# Build reports
-/
namespace CubePatch

/-- What a build did to an image. -/
structure BuildReport where
  placement : Placement
  /-- Where the game starts. -/
  gameEntry : UInt32
  /-- Where the loader was placed, if there is one. -/
  initAddress : Option UInt32
  allocation : UInt32
  /-- Size of the code list that was left, its first and last line included. -/
  codesLength : Nat
  hookAddress : Option UInt32
  variant : HandlerVariant
  /-- What became of the codes, if they were to be absorbed. -/
  optimized : Option AbsorptionCounts
  /-- The section that was added, if codes were left. -/
  area : Option Section
  textSections : Nat
  dataSections : Nat
  deriving DecidableEq, Repr

namespace BuildReport

/-- Whether all codes were absorbed, so that nothing was added. -/
def isFullyAbsorbed (report : BuildReport) : Bool :=
  report.area.isNone

/-- What is told about a build at its end. -/
def events (report : BuildReport) : List Event :=
  if report.isFullyAbsorbed then [.allAbsorbed]
  else
    report.initAddress.toList.map .startMoved ++
      [.sizesReported report.allocation report.codesLength] ++
      report.hookAddress.toList.map .hooked ++
      [.placementReported report.placement, .entryReported report.gameEntry,
        .variantReported report.variant] ++
      report.area.toList.map .payloadInstalled ++
      [.slotsReported report.textSections report.dataSections]

end BuildReport

end CubePatch
