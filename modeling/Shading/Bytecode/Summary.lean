import Shading.Number.Decimal
import Shading.Shader.Entry

/-!
# Reports on compilations

How large a program became, how much of the stack it uses, how long its parts took and which entry
points failed.  Durations are counted in nanoseconds; a report gives them in seconds, as the nearest
64-bit number with six places.
-/

namespace Shading

/-- A duration in nanoseconds. -/
abbrev Nanoseconds : Type := Nat

/-- What is known about a compilation. -/
structure Summary where
  /-- The number of instructions, header and terminator included. -/
  instructionCount : Nat := 0
  peakStackUsage : Nat := 0
  timeFinalize : Nanoseconds := 0
  timeSurface : Nanoseconds := 0
  timeBump : Nanoseconds := 0
  timeVolume : Nanoseconds := 0
  timeDisplacement : Nanoseconds := 0
  timeTotal : Nanoseconds := 0
  failed : List EntryPoint := []
  deriving DecidableEq, Inhabited

namespace Summary

/-- How long all sections took. -/
def timeGenerate (s : Summary) : Nanoseconds :=
  s.timeSurface + s.timeBump + s.timeVolume + s.timeDisplacement

/-- `m * 2 ^ e` as a quotient. -/
def quotient (m : Nat) (e : Int) : Nat × Nat :=
  if 0 ≤ e then (m <<< e.toNat, 1) else (m, 1 <<< (-e).toNat)

/-- The nearest 64-bit number to a quotient, as a quotient. -/
def nearestDouble (num den : Nat) : Nat × Nat :=
  let (m, e) := Format.double.nearest num den
  quotient m e

/-- A duration in seconds as a 64-bit number: whole seconds and the fraction are rounded by
themselves, and then their sum. -/
def seconds (t : Nanoseconds) : Nat × Nat :=
  let (a, b) := nearestDouble (t / 1000000000) 1
  let (c, d) := nearestDouble (t % 1000000000) 1000000000
  nearestDouble (a * d + c * b) (b * d)

def showSeconds (t : Nanoseconds) : String :=
  let (num, den) := seconds t
  Decimal.sixPlaces num den

/-- The lines of a report. -/
def reportLines (s : Summary) : List String :=
  ["Number of SVM nodes: " ++ toString s.instructionCount,
    "Peak stack usage:    " ++ toString s.peakStackUsage,
    "",
    "Time (in seconds):",
    "Finalize:            " ++ showSeconds s.timeFinalize,
    "  Surface:           " ++ showSeconds s.timeSurface,
    "  Bump:              " ++ showSeconds s.timeBump,
    "  Volume:            " ++ showSeconds s.timeVolume,
    "  Displacement:      " ++ showSeconds s.timeDisplacement,
    "Generate:            " ++ showSeconds s.timeGenerate,
    "Total:               " ++ showSeconds s.timeTotal] ++
  if s.failed.isEmpty then []
  else ["Failed entry points: " ++ ", ".intercalate (s.failed.map EntryPoint.name)]

def report (s : Summary) : String := String.join (s.reportLines.map (· ++ "\n"))

end Summary

end Shading
