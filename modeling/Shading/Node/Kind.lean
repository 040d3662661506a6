import Shading.Socket.Basic

/-!
# Kinds of node

The closed set of things a node can do, with the sockets that each kind starts with and the facts
that the compilers derive flags from: whether it is a closure, whether it emits light, whether its
result varies over the surface, and which kernel features it needs.

A script has no sockets of its own; they come from the parameters of its compiled program.
-/

namespace Shading

/-! ## Operations of single kinds -/

/-- An operation on two numbers. -/
inductive MathOp where
  | add | subtract | multiply | divide | power | minimum | maximum | lessThan | greaterThan
  | absolute | sine | cosine
  deriving DecidableEq, Repr

namespace MathOp

/-- All operations; the position of one in this list is its code in instructions. -/
def all : List MathOp :=
  [add, subtract, multiply, divide, power, minimum, maximum, lessThan, greaterThan, absolute, sine,
    cosine]

def label : MathOp → String
  | add => "Add"
  | subtract => "Subtract"
  | multiply => "Multiply"
  | divide => "Divide"
  | power => "Power"
  | minimum => "Minimum"
  | maximum => "Maximum"
  | lessThan => "LessThan"
  | greaterThan => "GreaterThan"
  | absolute => "Absolute"
  | sine => "Sine"
  | cosine => "Cosine"

/-- The name that the external engine knows the operation by. -/
def name : MathOp → String
  | add => "add"
  | subtract => "subtract"
  | multiply => "multiply"
  | divide => "divide"
  | power => "power"
  | minimum => "minimum"
  | maximum => "maximum"
  | lessThan => "less_than"
  | greaterThan => "greater_than"
  | absolute => "absolute"
  | sine => "sine"
  | cosine => "cosine"

/-- The smaller number; an undefined operand gives way to the other one. -/
def least (a b : Float32) : Float32 := if a.isNaN then b else if b < a then b else a

/-- The larger number; an undefined operand gives way to the other one. -/
def greatest (a b : Float32) : Float32 := if a.isNaN then b else if a < b then b else a

def truth (b : Bool) : Float32 := if b then 1 else 0

/-- The result on constants.  Division by zero gives zero. -/
def apply (op : MathOp) (a b : Float32) : Float32 :=
  match op with
  | add => a + b
  | subtract => a - b
  | multiply => a * b
  | divide => if b == 0 then 0 else a / b
  | power => Float32.pow a b
  | minimum => least a b
  | maximum => greatest a b
  | lessThan => truth (a < b)
  | greaterThan => truth (b < a)
  | absolute => a.abs
  | sine => a.sin
  | cosine => a.cos

end MathOp

/-- An operation on two vectors. -/
inductive VectorMathOp where
  | add | subtract | dotProduct | crossProduct | normalize
  deriving DecidableEq, Repr

namespace VectorMathOp

/-- All operations; the position of one in this list is its code in instructions. -/
def all : List VectorMathOp := [add, subtract, dotProduct, crossProduct, normalize]

def label : VectorMathOp → String
  | add => "Add"
  | subtract => "Subtract"
  | dotProduct => "DotProduct"
  | crossProduct => "CrossProduct"
  | normalize => "Normalize"

/-- The name that the external engine knows the operation by. -/
def name : VectorMathOp → String
  | add => "add"
  | subtract => "subtract"
  | dotProduct => "dot_product"
  | crossProduct => "cross_product"
  | normalize => "normalize"

end VectorMathOp

/-- A way to combine two colors. -/
inductive MixBlend where
  | mix | add | multiply | screen
  deriving DecidableEq, Repr

namespace MixBlend

/-- All ways; the position of one in this list is its code in instructions. -/
def all : List MixBlend := [mix, add, multiply, screen]

def label : MixBlend → String
  | mix => "Mix"
  | add => "Add"
  | multiply => "Multiply"
  | screen => "Screen"

/-- The name that the external engine knows the blend by. -/
def name : MixBlend → String
  | mix => "mix"
  | add => "add"
  | multiply => "multiply"
  | screen => "screen"

end MixBlend

/-- Where a script's compiled program comes from: a file that holds its source or its object, or
an object that the engine knows under a hash. -/
inductive ScriptSource where
  | file (path : String)
  | bytecode (hash : String)
  deriving DecidableEq, Repr

/-! ## Kinds -/

/-- What a node does. -/
inductive NodeKind where
  | output
  | value (value : Float32)
  | rgb (color : Vec3)
  | math (op : MathOp) (useClamp : Bool)
  | vectorMath (op : VectorMathOp)
  | mixRgb (blend : MixBlend) (useClamp : Bool)
  | namedAttribute (name : String)
  | textureCoordinate (fromDupli : Bool) (objectTransform : Option Transform)
  | geometry
  | lightPath
  | imageTexture (slot : UInt32) (filename colorspace : String)
  | checkerTexture
  | ambientOcclusion (samples : UInt32) (onlyLocal : Bool)
  | diffuseBsdf
  | glossyBsdf
  | transparentBsdf
  | subsurfaceScattering
  | emission
  | background
  | holdout
  | absorptionVolume
  | scatterVolume
  | mixClosure
  | addClosure
  | mixClosureWeight
  | bump (invert useObjectSpace : Bool)
  | bumpFromDisplacement (useObjectSpace : Bool)
  | displacement (useObjectSpace : Bool)
  | script (source : ScriptSource)
  deriving DecidableEq

/-- The role that a node plays for the compilers. -/
inductive SpecialType where
  | none | output | combineClosure | bump | geometry | closure
  deriving DecidableEq, Repr

def SpecialType.name : SpecialType → String
  | .none => "None"
  | .output => "Output"
  | .combineClosure => "CombineClosure"
  | .bump => "Bump"
  | .geometry => "Geometry"
  | .closure => "Closure"

/-! ## Kernel features -/

namespace Feature

def nodeBsdf : UInt32 := 1

def nodeEmission : UInt32 := 2

def nodeVolume : UInt32 := 4

def nodeBump : UInt32 := 8

/-- The geometry state that is saved while a height is sampled. -/
def nodeBumpState : UInt32 := 16

def nodeRaytrace : UInt32 := 32

/-- The kind of the ray that is shaded. -/
def nodeLightPath : UInt32 := 64

def transparent : UInt32 := 128

def subsurface : UInt32 := 256

def volume : UInt32 := 512

def externalEngine : UInt32 := 1024

end Feature

/-! ## Socket templates -/

/-- The internal weight input of surface closures. -/
def surfaceWeight : String := "SurfaceMixWeight"

/-- The internal weight input of volume closures. -/
def volumeWeight : String := "VolumeMixWeight"

namespace Input

def float (name : String) (v : Float32) : Input := ⟨name, .float, .float v, false⟩

def gray (name : String) (v : Float32) : Input := ⟨name, .color, .vec3 (Vec3.splat v), false⟩

/-- A vector of the given type, zero at first. -/
def vec3 (name : String) (ty : SocketType) : Input := ⟨name, ty, .vec3 Vec3.zero, false⟩

def closure (name : String) : Input := ⟨name, .closure, .none, false⟩

def weight (name : String) : Input := ⟨name, .float, .float 0, true⟩

end Input

namespace NodeKind

def inputs : NodeKind → List Input
  | output =>
    [.closure "Surface", .closure "Volume", .vec3 "Displacement" .vector, .vec3 "Normal" .normal]
  | math .. => [.float "Value1" 0.5, .float "Value2" 0.5]
  | vectorMath _ => [.vec3 "Vector1" .vector, .vec3 "Vector2" .vector]
  | mixRgb .. => [.float "Fac" 0.5, .gray "Color1" 0.5, .gray "Color2" 0.5]
  | imageTexture .. => [.vec3 "Vector" .point]
  | checkerTexture =>
    [.vec3 "Vector" .point, .gray "Color1" 0.8, .gray "Color2" 0.2, .float "Scale" 5]
  | ambientOcclusion .. => [.gray "Color" 1, .float "Distance" 1, .vec3 "Normal" .normal]
  | diffuseBsdf =>
    [.gray "Color" 0.8, .float "Roughness" 0, .vec3 "Normal" .normal, .weight surfaceWeight]
  | glossyBsdf =>
    [.gray "Color" 0.8, .float "Roughness" 0.5, .vec3 "Normal" .normal, .weight surfaceWeight]
  | transparentBsdf => [.gray "Color" 1, .weight surfaceWeight]
  | subsurfaceScattering =>
    [.gray "Color" 0.8, .float "Scale" 1, ⟨"Radius", .vector, .vec3 (Vec3.splat 0.1), false⟩,
      .vec3 "Normal" .normal, .weight surfaceWeight]
  | emission => [.gray "Color" 0.8, .float "Strength" 10, .weight surfaceWeight]
  | background => [.gray "Color" 0.8, .float "Strength" 1, .weight surfaceWeight]
  | holdout => [.weight surfaceWeight, .weight volumeWeight]
  | absorptionVolume => [.gray "Color" 0.8, .float "Density" 1, .weight volumeWeight]
  | scatterVolume =>
    [.gray "Color" 0.8, .float "Density" 1, .float "Anisotropy" 0, .weight volumeWeight]
  | mixClosure => [.float "Fac" 0.5, .closure "Closure1", .closure "Closure2"]
  | addClosure => [.closure "Closure1", .closure "Closure2"]
  | mixClosureWeight => [.float "Weight" 1, .float "Fac" 1]
  | bump .. =>
    [.float "Strength" 1, .float "Distance" 0.1, .float "Height" 1, .vec3 "Normal" .normal]
  | bumpFromDisplacement _ => [.vec3 "Displacement" .vector]
  | displacement _ =>
    [.float "Height" 0, .float "Midlevel" 0.5, .float "Scale" 1, .vec3 "Normal" .normal]
  | value _ | rgb _ | namedAttribute _ | textureCoordinate .. | geometry | lightPath | script _ => []

def outputs : NodeKind → List Output
  | output | script _ => []
  | value _ | math .. => [⟨"Value", .float⟩]
  | rgb _ | mixRgb .. => [⟨"Color", .color⟩]
  | vectorMath _ => [⟨"Value", .float⟩, ⟨"Vector", .vector⟩]
  | namedAttribute _ => [⟨"Color", .color⟩, ⟨"Vector", .vector⟩, ⟨"Fac", .float⟩]
  | textureCoordinate .. =>
    [⟨"Generated", .point⟩, ⟨"Normal", .normal⟩, ⟨"UV", .point⟩, ⟨"Object", .point⟩]
  | geometry =>
    [⟨"Position", .point⟩, ⟨"Normal", .normal⟩, ⟨"Incoming", .vector⟩, ⟨"Backfacing", .float⟩]
  | lightPath => [⟨"IsCameraRay", .float⟩, ⟨"IsShadowRay", .float⟩, ⟨"RayLength", .float⟩]
  | imageTexture .. => [⟨"Color", .color⟩, ⟨"Alpha", .float⟩]
  | checkerTexture => [⟨"Color", .color⟩, ⟨"Fac", .float⟩]
  | ambientOcclusion .. => [⟨"Color", .color⟩, ⟨"AO", .float⟩]
  | diffuseBsdf | glossyBsdf | transparentBsdf => [⟨"BSDF", .closure⟩]
  | subsurfaceScattering => [⟨"BSSRDF", .closure⟩]
  | emission => [⟨"Emission", .closure⟩]
  | background => [⟨"Background", .closure⟩]
  | holdout => [⟨"Holdout", .closure⟩]
  | absorptionVolume | scatterVolume => [⟨"Volume", .closure⟩]
  | mixClosure | addClosure => [⟨"Closure", .closure⟩]
  | mixClosureWeight => [⟨"Weight1", .float⟩, ⟨"Weight2", .float⟩]
  | bump .. | bumpFromDisplacement _ => [⟨"Normal", .normal⟩]
  | displacement _ => [⟨"Displacement", .vector⟩]

/-! ## Facts about kinds -/

/-- The name of the kind in layer names and messages. -/
def typeName : NodeKind → String
  | output => "output"
  | value _ => "value"
  | rgb _ => "rgb"
  | math .. => "math"
  | vectorMath _ => "vector_math"
  | mixRgb .. => "mix"
  | namedAttribute _ => "attribute"
  | textureCoordinate .. => "texture_coordinate"
  | geometry => "geometry"
  | lightPath => "light_path"
  | imageTexture .. => "image_texture"
  | checkerTexture => "checker_texture"
  | ambientOcclusion .. => "ambient_occlusion"
  | diffuseBsdf => "diffuse_bsdf"
  | glossyBsdf => "glossy_bsdf"
  | transparentBsdf => "transparent_bsdf"
  | subsurfaceScattering => "subsurface_scattering"
  | emission => "emission"
  | background => "background"
  | holdout => "holdout"
  | absorptionVolume => "absorption_volume"
  | scatterVolume => "scatter_volume"
  | mixClosure => "mix_closure"
  | addClosure => "add_closure"
  | mixClosureWeight => "mix_closure_weight"
  | bump .. => "bump"
  | bumpFromDisplacement _ => "bump_from_displacement"
  | displacement _ => "displacement"
  | script _ => "script"

/-- Whether the kind is a closure that combines no others. -/
def isClosure : NodeKind → Bool
  | diffuseBsdf | glossyBsdf | transparentBsdf | subsurfaceScattering | emission | background
  | holdout | absorptionVolume | scatterVolume => true
  | _ => false

def special : NodeKind → SpecialType
  | output => .output
  | mixClosure | addClosure => .combineClosure
  | bump .. => .bump
  | geometry => .geometry
  | k => if k.isClosure then .closure else .none

def emitsSurface : NodeKind → Bool
  | emission => true
  | _ => false

def isTransparent : NodeKind → Bool
  | transparentBsdf => true
  | _ => false

def isSubsurface : NodeKind → Bool
  | subsurfaceScattering => true
  | _ => false

/-- Whether the result depends on the shading position. -/
def variesInSpace : NodeKind → Bool
  | namedAttribute _ | textureCoordinate .. | geometry | imageTexture .. | checkerTexture
  | ambientOcclusion .. | bump .. | bumpFromDisplacement _ => true
  | _ => false

/-- Whether the result depends on geometry attributes. -/
def readsAttributes : NodeKind → Bool
  | namedAttribute _ | textureCoordinate .. => true
  | _ => false

/-- Whether the result depends on the state of the integrator, such as the kind of ray. -/
def readsIntegrator : NodeKind → Bool
  | lightPath => true
  | _ => false

def castsRays : NodeKind → Bool
  | ambientOcclusion .. => true
  | _ => false

/-- The kernel features that the kind needs when it is compiled. -/
def features : NodeKind → UInt32
  | emission | background => Feature.nodeEmission
  | transparentBsdf => Feature.nodeBsdf ||| Feature.transparent
  | subsurfaceScattering => Feature.nodeBsdf ||| Feature.subsurface
  | diffuseBsdf | glossyBsdf | holdout => Feature.nodeBsdf
  | absorptionVolume | scatterVolume => Feature.nodeVolume ||| Feature.volume
  | bump .. | bumpFromDisplacement _ => Feature.nodeBump
  | ambientOcclusion .. => Feature.nodeRaytrace
  | lightPath => Feature.nodeLightPath
  | script _ => Feature.externalEngine
  | _ => 0

end NodeKind

end Shading
