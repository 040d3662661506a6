import Shading.Graph.Finalize
import Shading.Graph.Query
import Shading.Shader.Program

/-!
# Shaders

A shader is a graph with the settings that the renderer needs and the results of its last
compilation: flags for what it uses, the attributes it asks for, and its program.

Changing the graph marks the shader modified; changing a setting does not.
-/

namespace Shading

/-- The position of a shader in its scene. -/
abbrev ShaderId : Type := Nat

/-! ## Settings -/

/-- What displacement does: perturb the normal, move the geometry, or both. -/
inductive DisplacementMethod where
  | bump | displace | both
  deriving DecidableEq, Repr

namespace DisplacementMethod

/-- All methods; the position of one in this list is its code. -/
def all : List DisplacementMethod := [bump, displace, both]

def label : DisplacementMethod → String
  | bump => "Bump"
  | displace => "True"
  | both => "Both"

def ofJson? (j : Json) : Option DisplacementMethod := j.enum? all label

end DisplacementMethod

/-- How points in a volume are chosen. -/
inductive VolumeSampling where
  | distance | equiangular | multipleImportance
  deriving DecidableEq, Repr

namespace VolumeSampling

/-- All methods; the position of one in this list is its code. -/
def all : List VolumeSampling := [distance, equiangular, multipleImportance]

def label : VolumeSampling → String
  | distance => "Distance"
  | equiangular => "Equiangular"
  | multipleImportance => "MultipleImportance"

def ofJson? (j : Json) : Option VolumeSampling := j.enum? all label

end VolumeSampling

/-- How values between the points of a volume's grid are computed. -/
inductive VolumeInterpolation where
  | linear | cubic
  deriving DecidableEq, Repr

namespace VolumeInterpolation

/-- All methods; the position of one in this list is its code. -/
def all : List VolumeInterpolation := [linear, cubic]

def label : VolumeInterpolation → String
  | linear => "Linear"
  | cubic => "Cubic"

def ofJson? (j : Json) : Option VolumeInterpolation := j.enum? all label

end VolumeInterpolation

/-! ## Flags -/

/-- What a shader uses, found while it is compiled. -/
structure ShaderFlags where
  hasSurface : Bool := false
  hasSurfaceEmission : Bool := false
  hasSurfaceTransparent : Bool := false
  hasSurfaceRaytrace : Bool := false
  hasSurfaceBssrdf : Bool := false
  hasBssrdfBump : Bool := false
  hasSurfaceSpatialVarying : Bool := false
  hasBump : Bool := false
  hasVolume : Bool := false
  hasVolumeSpatialVarying : Bool := false
  hasVolumeAttributeDependency : Bool := false
  hasDisplacement : Bool := false
  hasIntegratorDependency : Bool := false
  deriving DecidableEq, Inhabited, Repr

namespace ShaderFlags

/-- The names of the flags in documents, in order. -/
def names : List String :=
  ["has_surface", "has_surface_emission", "has_surface_transparent", "has_surface_raytrace",
    "has_surface_bssrdf", "has_bssrdf_bump", "has_surface_spatial_varying", "has_bump",
    "has_volume", "has_volume_spatial_varying", "has_volume_attribute_dependency",
    "has_displacement", "has_integrator_dependency"]

/-- The flags in the order of their names. -/
def toList (f : ShaderFlags) : List Bool :=
  [f.hasSurface, f.hasSurfaceEmission, f.hasSurfaceTransparent, f.hasSurfaceRaytrace,
    f.hasSurfaceBssrdf, f.hasBssrdfBump, f.hasSurfaceSpatialVarying, f.hasBump, f.hasVolume,
    f.hasVolumeSpatialVarying, f.hasVolumeAttributeDependency, f.hasDisplacement,
    f.hasIntegratorDependency]

/-- The flags that are set in one of two. -/
def union (f g : ShaderFlags) : ShaderFlags where
  hasSurface := f.hasSurface || g.hasSurface
  hasSurfaceEmission := f.hasSurfaceEmission || g.hasSurfaceEmission
  hasSurfaceTransparent := f.hasSurfaceTransparent || g.hasSurfaceTransparent
  hasSurfaceRaytrace := f.hasSurfaceRaytrace || g.hasSurfaceRaytrace
  hasSurfaceBssrdf := f.hasSurfaceBssrdf || g.hasSurfaceBssrdf
  hasBssrdfBump := f.hasBssrdfBump || g.hasBssrdfBump
  hasSurfaceSpatialVarying := f.hasSurfaceSpatialVarying || g.hasSurfaceSpatialVarying
  hasBump := f.hasBump || g.hasBump
  hasVolume := f.hasVolume || g.hasVolume
  hasVolumeSpatialVarying := f.hasVolumeSpatialVarying || g.hasVolumeSpatialVarying
  hasVolumeAttributeDependency := f.hasVolumeAttributeDependency || g.hasVolumeAttributeDependency
  hasDisplacement := f.hasDisplacement || g.hasDisplacement
  hasIntegratorDependency := f.hasIntegratorDependency || g.hasIntegratorDependency

def ofJson? (j : Json) : Option ShaderFlags := do
  let r ← j.fields? names
  let flag := fun name => r.get? name Json.bool?
  return {
    hasSurface := ← flag "has_surface"
    hasSurfaceEmission := ← flag "has_surface_emission"
    hasSurfaceTransparent := ← flag "has_surface_transparent"
    hasSurfaceRaytrace := ← flag "has_surface_raytrace"
    hasSurfaceBssrdf := ← flag "has_surface_bssrdf"
    hasBssrdfBump := ← flag "has_bssrdf_bump"
    hasSurfaceSpatialVarying := ← flag "has_surface_spatial_varying"
    hasBump := ← flag "has_bump"
    hasVolume := ← flag "has_volume"
    hasVolumeSpatialVarying := ← flag "has_volume_spatial_varying"
    hasVolumeAttributeDependency := ← flag "has_volume_attribute_dependency"
    hasDisplacement := ← flag "has_displacement"
    hasIntegratorDependency := ← flag "has_integrator_dependency" }

def toJson (f : ShaderFlags) : Json := .obj (names.zip (f.toList.map .bool))

end ShaderFlags

/-! ## Shaders -/

/-- A named shader. -/
structure Shader where
  name : String
  graph : Graph := .new
  passId : Int32 := 0
  useMis : Bool := true
  useTransparentShadow : Bool := true
  heterogeneousVolume : Bool := true
  volumeSampling : VolumeSampling := .multipleImportance
  volumeInterpolation : VolumeInterpolation := .linear
  volumeStepRate : Float32 := 1
  displacementMethod : DisplacementMethod := .bump
  /-- The position in the scene, known after the first update. -/
  id : Option ShaderId := none
  flags : ShaderFlags := {}
  hasVolumeConnected : Bool := false
  attributes : AttributeSet := .empty
  /-- Whether the last compilation changed the attributes. -/
  needUpdateAttribute : Bool := false
  compiled : Option CompiledProgram := none
  modified : Bool := true

namespace Shader

def new (name : String) : Shader := { name }

instance : Inhabited Shader := ⟨new ""⟩

/-- Whether something feeds the terminal of an entry point. -/
def isTerminalLinked (s : Shader) (e : EntryPoint) : Bool :=
  (s.graph.net.inputLinkByName? s.graph.output e.terminal).isSome

/-- The shader with its graph edited, which marks it modified. -/
def editGraph (s : Shader) (graph : Graph) : Shader := { s with graph, modified := true }

def setGraph (s : Shader) (graph : Graph) : Shader :=
  let s := s.editGraph graph
  { s with hasVolumeConnected := s.isTerminalLinked .volume }

def withGraph (name : String) (graph : Graph) : Shader := (new name).setGraph graph

/-- Whether a compilation has a bump section: displacement perturbs the normal and both a surface
and a displacement are there. -/
def needsBump (s : Shader) : Bool :=
  s.displacementMethod != .displace && s.isTerminalLinked .surface &&
    s.isTerminalLinked .displacement

/-- How the graph is made ready for this shader. -/
def finalizeOptions (s : Shader) : FinalizeOptions :=
  ⟨s.needsBump, s.needsBump && s.displacementMethod == .both⟩

/-- Makes the graph ready and forgets the flags of the last compilation. -/
def prepare (s : Shader) : Shader :=
  let s := { s with graph := s.graph.finalize s.finalizeOptions, flags := {} }
  { s with hasVolumeConnected := s.isTerminalLinked .volume }

/-- Stores the attributes that a compilation found.  Geometry that is both moved and bumped also
needs the positions before it was moved. -/
def updateAttributes (s : Shader) (requests : AttributeSet) : Shader :=
  let requests :=
    if s.flags.hasDisplacement && s.displacementMethod == .both then
      requests.insertStandard .positionUndisplaced
    else requests
  { s with needUpdateAttribute := requests.differs s.attributes, attributes := requests }

/-- The light that a shader emits, if its surface is a single emission or background closure with
nothing linked to its color and strength. -/
def constantEmission? (s : Shader) : Option Vec3 := do
  let net := s.graph.net
  let (source, _) ← net.inputLinkByName? s.graph.output "Surface"
  let node ← net.node? source
  if node.kind = .emission || node.kind = .background then
    if (net.inputLinkByName? source "Color").isSome ||
        (net.inputLinkByName? source "Strength").isSome then none
    else return (node.vec3 "Color").scale (node.float "Strength")
  else none

end Shader

end Shading
