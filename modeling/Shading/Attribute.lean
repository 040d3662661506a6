import Shading.Json.Decode
import Shading.OrderedSet

/-!
# Geometry attributes

Shaders read attributes of the geometry by number.  The standard attributes have fixed numbers,
their position in `StandardAttribute.all`; other names are numbered in the order in which they are
first asked for, after the standard ones, and keep their number.

`AttributeIds` is the table of numbers, `AttributeSet` the ordered set of the attributes that a
shader asks for.
-/

namespace Shading

/-- An attribute with a fixed meaning and number. -/
inductive StandardAttribute where
  | vertexNormal | faceNormal | uv | uvTangent | uvTangentSign | vertexColor | positionUndisplaced
  | generated | generatedTransform | motionVertexPosition | pointiness | randomPerIsland
  | curveIntercept | curveRandom | volumeDensity | volumeColor | volumeFlame | volumeHeat
  | volumeTemperature | volumeVelocity | shadowTransparency
  deriving DecidableEq, Repr

namespace StandardAttribute

/-- All standard attributes, in the order of their numbers. -/
def all : List StandardAttribute :=
  [vertexNormal, faceNormal, uv, uvTangent, uvTangentSign, vertexColor, positionUndisplaced,
    generated, generatedTransform, motionVertexPosition, pointiness, randomPerIsland,
    curveIntercept, curveRandom, volumeDensity, volumeColor, volumeFlame, volumeHeat,
    volumeTemperature, volumeVelocity, shadowTransparency]

/-- The number of standard attributes, and the first number of other names. -/
def count : Nat := all.length

/-- The name by which shaders ask for the attribute. -/
def name : StandardAttribute → String
  | vertexNormal => "N"
  | faceNormal => "Ng"
  | uv => "uv"
  | uvTangent => "tangent"
  | uvTangentSign => "tangent_sign"
  | vertexColor => "vertex_color"
  | positionUndisplaced => "undisplaced"
  | generated => "generated"
  | generatedTransform => "generated_transform"
  | motionVertexPosition => "motion_P"
  | pointiness => "pointiness"
  | randomPerIsland => "random_per_island"
  | curveIntercept => "curve_intercept"
  | curveRandom => "curve_random"
  | volumeDensity => "density"
  | volumeColor => "color"
  | volumeFlame => "flame"
  | volumeHeat => "heat"
  | volumeTemperature => "temperature"
  | volumeVelocity => "velocity"
  | shadowTransparency => "shadow_transparency"

def label : StandardAttribute → String
  | vertexNormal => "VertexNormal"
  | faceNormal => "FaceNormal"
  | uv => "Uv"
  | uvTangent => "UvTangent"
  | uvTangentSign => "UvTangentSign"
  | vertexColor => "VertexColor"
  | positionUndisplaced => "PositionUndisplaced"
  | generated => "Generated"
  | generatedTransform => "GeneratedTransform"
  | motionVertexPosition => "MotionVertexPosition"
  | pointiness => "Pointiness"
  | randomPerIsland => "RandomPerIsland"
  | curveIntercept => "CurveIntercept"
  | curveRandom => "CurveRandom"
  | volumeDensity => "VolumeDensity"
  | volumeColor => "VolumeColor"
  | volumeFlame => "VolumeFlame"
  | volumeHeat => "VolumeHeat"
  | volumeTemperature => "VolumeTemperature"
  | volumeVelocity => "VolumeVelocity"
  | shadowTransparency => "ShadowTransparency"

def ofName? (name : String) : Option StandardAttribute := all.find? fun a => a.name == name

def id (a : StandardAttribute) : Nat := all.idxOf a

def ofJson? (j : Json) : Option StandardAttribute := j.enum? all label

end StandardAttribute

/-! ## Keys -/

/-- An attribute that is asked for: a standard one, or one by its name. -/
inductive AttributeKey where
  | standard (a : StandardAttribute)
  | named (name : String)
  deriving DecidableEq, Repr

namespace AttributeKey

/-- The key of a name; the name of a standard attribute gives its standard key. -/
def ofName (name : String) : AttributeKey :=
  match StandardAttribute.ofName? name with
  | some a => .standard a
  | none => .named name

def name : AttributeKey → String
  | .standard a => a.name
  | .named n => n

def ofJson? (j : Json) : Option AttributeKey := do
  match ← j.variant? with
  | ("Standard", some payload) => (StandardAttribute.ofJson? payload).map .standard
  | ("Name", some payload) => payload.str?.map .named
  | _ => none

def toJson : AttributeKey → Json
  | .standard a => .obj [("Standard", .str a.label)]
  | .named n => .obj [("Name", .str n)]

end AttributeKey

/-! ## Numbers of names -/

/-- The names that have a number, in the order of their numbers. -/
structure AttributeIds where
  names : OrderedSet String

namespace AttributeIds

def empty : AttributeIds := ⟨.empty⟩

instance : Inhabited AttributeIds := ⟨empty⟩

def size (ids : AttributeIds) : Nat := ids.names.size

/-- The number of a name that is not standard, for a table in which it has one. -/
def position (ids : AttributeIds) (name : String) : Nat :=
  StandardAttribute.count + ids.names.toList.idxOf name

/-- The number of a name, and the table after asking.  Standard names have their fixed number and
leave the table alone. -/
def lookup (ids : AttributeIds) (name : String) : Nat × AttributeIds :=
  match StandardAttribute.ofName? name with
  | some a => (a.id, ids)
  | none =>
    let ids : AttributeIds := ⟨ids.names.insert name⟩
    (ids.position name, ids)

/-- The number of a key, and the table after asking. -/
def lookupKey (ids : AttributeIds) : AttributeKey → Nat × AttributeIds
  | .standard a => (a.id, ids)
  | .named name => ids.lookup name

end AttributeIds

/-! ## Sets of requests -/

/-- The attributes that a shader asks for, in the order in which they were added. -/
abbrev AttributeSet : Type := OrderedSet AttributeKey

namespace AttributeSet

def insertStandard (s : AttributeSet) (a : StandardAttribute) : AttributeSet :=
  s.insert (.standard a)

def insertName (s : AttributeSet) (name : String) : AttributeSet := s.insert (.ofName name)

def ofJson? (j : Json) : Option AttributeSet := do
  let r ← j.fields? ["requests"]
  return OrderedSet.ofList (← r.get? "requests" (Json.list? AttributeKey.ofJson?))

def toJson (s : AttributeSet) : Json := .obj [("requests", .arr (s.toList.map AttributeKey.toJson))]

end AttributeSet

end Shading
