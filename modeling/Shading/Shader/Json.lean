import Shading.Shader.Basic
import Shading.Graph.Json

/-!
# Shaders as documents

A shader is a record of its settings, its graph and its results.  When several members of a
document are at fault, the first one decides how reading fails.
-/

namespace Shading.Shader

/-- The names of the members, in order. -/
def fieldNames : List String :=
  ["name", "graph", "pass_id", "use_mis", "use_transparent_shadow", "heterogeneous_volume",
    "volume_sampling_method", "volume_interpolation_method", "volume_step_rate",
    "displacement_method", "id", "flags", "has_volume_connected", "attributes",
    "need_update_attribute", "compiled", "modified"]

def toJson (s : Shader) : Json :=
  .obj [("name", .str s.name), ("graph", s.graph.toJson), ("pass_id", .int s.passId.toInt),
    ("use_mis", .bool s.useMis), ("use_transparent_shadow", .bool s.useTransparentShadow),
    ("heterogeneous_volume", .bool s.heterogeneousVolume),
    ("volume_sampling_method", .str s.volumeSampling.label),
    ("volume_interpolation_method", .str s.volumeInterpolation.label),
    ("volume_step_rate", .float s.volumeStepRate),
    ("displacement_method", .str s.displacementMethod.label),
    ("id", Json.ofOption .nat s.id), ("flags", s.flags.toJson),
    ("has_volume_connected", .bool s.hasVolumeConnected), ("attributes", s.attributes.toJson),
    ("need_update_attribute", .bool s.needUpdateAttribute),
    ("compiled", Json.ofOption CompiledProgram.toJson s.compiled), ("modified", .bool s.modified)]

/-- The shader with the given graph and the other members of a record. -/
def ofFields? (graph : Graph) (r : Json.Fields) : Option Shader := do
  return {
    name := ← r.get? "name" Json.str?
    graph
    passId := ← r.get? "pass_id" Json.int32?
    useMis := ← r.get? "use_mis" Json.bool?
    useTransparentShadow := ← r.get? "use_transparent_shadow" Json.bool?
    heterogeneousVolume := ← r.get? "heterogeneous_volume" Json.bool?
    volumeSampling := ← r.get? "volume_sampling_method" VolumeSampling.ofJson?
    volumeInterpolation := ← r.get? "volume_interpolation_method" VolumeInterpolation.ofJson?
    volumeStepRate := ← r.get? "volume_step_rate" Json.float32?
    displacementMethod := ← r.get? "displacement_method" DisplacementMethod.ofJson?
    id := ← r.option? "id" Json.index32?
    flags := ← r.get? "flags" ShaderFlags.ofJson?
    hasVolumeConnected := ← r.get? "has_volume_connected" Json.bool?
    attributes := ← r.get? "attributes" AttributeSet.ofJson?
    needUpdateAttribute := ← r.get? "need_update_attribute" Json.bool?
    compiled := ← r.option? "compiled" CompiledProgram.ofJson?
    modified := ← r.get? "modified" Json.bool? }

/-- The members of a shader without any faults, with one of them replaced. -/
def sampleWith (name : String) (j : Json) : Json.Fields := fun n =>
  if n = name then some j else (new "").toJson.member? n

/-- The fault of a single member: it would spoil a document that is good without it. -/
def fault? (member : String × Json) : Option LoadError :=
  if member.1 = "graph" then
    match Graph.ofJson member.2 with
    | .ok _ => none
    | .error e => some e
  else if (ofFields? .new (sampleWith member.1 member.2)).isNone then some .malformed
  else none

/-- The members that a document gives, in its order. -/
def members : Json → List (String × Json)
  | .obj members => members
  | .arr items => fieldNames.zip items
  | _ => []

def ofJson (j : Json) : Except LoadError Shader :=
  match (members j).findSome? fault? with
  | some e => .error e
  | none => do
    let r ← LoadError.ofOption (j.fields? fieldNames)
    let graph ← match r "graph" with
      | some g => Graph.ofJson g
      | none => .error .malformed
    LoadError.ofOption (ofFields? graph r)

end Shading.Shader
