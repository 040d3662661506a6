import Shading.Scene.Basic

/-!
# Updates as documents
-/

namespace Shading

/-- A duration as a document: whole seconds, and the nanoseconds that are left. -/
def durationToJson (t : Nanoseconds) : Json :=
  .obj [("secs", .nat (t / 1000000000)), ("nanos", .nat (t % 1000000000))]

def Summary.toJson (s : Summary) : Json :=
  .obj [("num_svm_nodes", .nat s.instructionCount), ("peak_stack_usage", .nat s.peakStackUsage),
    ("time_finalize", durationToJson s.timeFinalize),
    ("time_generate_surface", durationToJson s.timeSurface),
    ("time_generate_bump", durationToJson s.timeBump),
    ("time_generate_volume", durationToJson s.timeVolume),
    ("time_generate_displacement", durationToJson s.timeDisplacement),
    ("time_total", durationToJson s.timeTotal),
    ("failed", .arr (s.failed.map fun e => .str e.label))]

namespace Scene

def ShaderFailure.toJson (f : ShaderFailure) : Json :=
  .obj [("shader", .nat f.shader), ("entry", .str f.entry.label), ("message", .str f.message)]

def HostUpdate.toJson (u : HostUpdate) : Json :=
  let ids := fun (l : List ShaderId) => Json.arr (l.map .nat)
  .obj [("compiled", ids u.compiled), ("failures", .arr (u.failures.map ShaderFailure.toJson)),
    ("emission_changed", ids u.emissionChanged), ("attributes_changed", ids u.attributesChanged),
    ("unchanged_programs", ids u.unchangedPrograms),
    ("summaries", .arr (u.summaries.map fun (id, s) => .arr [.nat id, s.toJson])),
    ("cancelled", .bool u.cancelled)]

end Scene

end Shading
