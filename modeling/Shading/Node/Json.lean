import Shading.Node.Basic
import Shading.Socket.Json

/-!
# Nodes as documents

A kind is an object whose member `type` names it and whose other members are its parameters; the
array form lists the name and then the parameters.  A node is a record of kind and sockets.
-/

namespace Shading

namespace ScriptSource

def ofJson? (j : Json) : Option ScriptSource := do
  match ← j.variant? with
  | ("File", some payload) => payload.str?.map .file
  | ("Bytecode", some payload) =>
    let r ← payload.fields? ["hash"]
    return .bytecode (← r.get? "hash" Json.str?)
  | _ => none

def toJson : ScriptSource → Json
  | .file path => .obj [("File", .str path)]
  | .bytecode hash => .obj [("Bytecode", .obj [("hash", .str hash)])]

end ScriptSource

namespace NodeKind

def label : NodeKind → String
  | output => "Output"
  | value _ => "Value"
  | rgb _ => "Rgb"
  | math .. => "Math"
  | vectorMath _ => "VectorMath"
  | mixRgb .. => "MixRgb"
  | namedAttribute _ => "Attribute"
  | textureCoordinate .. => "TextureCoordinate"
  | geometry => "Geometry"
  | lightPath => "LightPath"
  | imageTexture .. => "ImageTexture"
  | checkerTexture => "CheckerTexture"
  | ambientOcclusion .. => "AmbientOcclusion"
  | diffuseBsdf => "DiffuseBsdf"
  | glossyBsdf => "GlossyBsdf"
  | transparentBsdf => "TransparentBsdf"
  | subsurfaceScattering => "SubsurfaceScattering"
  | emission => "Emission"
  | background => "Background"
  | holdout => "Holdout"
  | absorptionVolume => "AbsorptionVolume"
  | scatterVolume => "ScatterVolume"
  | mixClosure => "MixClosure"
  | addClosure => "AddClosure"
  | mixClosureWeight => "MixClosureWeight"
  | bump .. => "Bump"
  | bumpFromDisplacement _ => "BumpFromDisplacement"
  | displacement _ => "Displacement"
  | script _ => "Script"

/-- The kinds without parameters. -/
def plain : List NodeKind :=
  [output, geometry, lightPath, checkerTexture, diffuseBsdf, glossyBsdf, transparentBsdf,
    subsurfaceScattering, emission, background, holdout, absorptionVolume, scatterVolume,
    mixClosure, addClosure, mixClosureWeight]

/-- The names of the parameters of the named kind, in order. -/
def parameterNames : String → List String
  | "Value" => ["value"]
  | "Rgb" => ["color"]
  | "Math" => ["op", "use_clamp"]
  | "VectorMath" => ["op"]
  | "MixRgb" => ["blend", "use_clamp"]
  | "Attribute" => ["attribute"]
  | "TextureCoordinate" => ["from_dupli", "object_transform"]
  | "ImageTexture" => ["slot", "filename", "colorspace"]
  | "AmbientOcclusion" => ["samples", "only_local"]
  | "Bump" => ["invert", "use_object_space"]
  | "BumpFromDisplacement" => ["use_object_space"]
  | "Displacement" => ["use_object_space"]
  | "Script" => ["source"]
  | _ => []

/-- The kind of the given name with the given parameters. -/
def ofFields? (name : String) (r : Json.Fields) : Option NodeKind :=
  match name with
  | "Value" => do return .value (← r.get? "value" Json.float32?)
  | "Rgb" => do return .rgb (← r.get? "color" Vec3.ofJson?)
  | "Math" => do
    return .math (← r.get? "op" (Json.lenientEnum? MathOp.all MathOp.label))
      (← r.get? "use_clamp" Json.bool?)
  | "VectorMath" => do
    return .vectorMath (← r.get? "op" (Json.lenientEnum? VectorMathOp.all VectorMathOp.label))
  | "MixRgb" => do
    return .mixRgb (← r.get? "blend" (Json.lenientEnum? MixBlend.all MixBlend.label))
      (← r.get? "use_clamp" Json.bool?)
  | "Attribute" => do return .namedAttribute (← r.get? "attribute" Json.str?)
  | "TextureCoordinate" => do
    return .textureCoordinate (← r.get? "from_dupli" Json.bool?)
      (← r.option? "object_transform" Transform.ofJson?)
  | "ImageTexture" => do
    return .imageTexture (← r.get? "slot" Json.uint32?) (← r.get? "filename" Json.str?)
      (← r.get? "colorspace" Json.str?)
  | "AmbientOcclusion" => do
    return .ambientOcclusion (← r.get? "samples" Json.uint32?) (← r.get? "only_local" Json.bool?)
  | "Bump" => do
    return .bump (← r.get? "invert" Json.bool?) (← r.get? "use_object_space" Json.bool?)
  | "BumpFromDisplacement" => do
    return .bumpFromDisplacement (← r.get? "use_object_space" Json.bool?)
  | "Displacement" => do return .displacement (← r.get? "use_object_space" Json.bool?)
  | "Script" => do return .script (← r.get? "source" ScriptSource.ofJson?)
  | _ => plain.find? fun k => k.label == name

def ofJson? : Json → Option NodeKind
  | .arr (.str name :: items) => do
    ofFields? name (← Json.fields? (parameterNames name) (.arr items))
  | .obj members => do
    match members.lookup "type" with
    | some (.str name) =>
      ofFields? name (← Json.fields? ("type" :: parameterNames name) (.obj members))
    | _ => none
  | _ => none

/-- The parameters of the kind as members of its document. -/
def parameters : NodeKind → List (String × Json)
  | value v => [("value", .float v)]
  | rgb color => [("color", color.toJson)]
  | math op useClamp => [("op", .str op.label), ("use_clamp", .bool useClamp)]
  | vectorMath op => [("op", .str op.label)]
  | mixRgb blend useClamp => [("blend", .str blend.label), ("use_clamp", .bool useClamp)]
  | namedAttribute a => [("attribute", .str a)]
  | textureCoordinate fromDupli objectTransform =>
    [("from_dupli", .bool fromDupli),
      ("object_transform", Json.ofOption Transform.toJson objectTransform)]
  | imageTexture slot filename colorspace =>
    [("slot", .nat slot.toNat), ("filename", .str filename), ("colorspace", .str colorspace)]
  | ambientOcclusion samples onlyLocal =>
    [("samples", .nat samples.toNat), ("only_local", .bool onlyLocal)]
  | bump invert useObjectSpace =>
    [("invert", .bool invert), ("use_object_space", .bool useObjectSpace)]
  | bumpFromDisplacement useObjectSpace => [("use_object_space", .bool useObjectSpace)]
  | displacement useObjectSpace => [("use_object_space", .bool useObjectSpace)]
  | script source => [("source", source.toJson)]
  | _ => []

def toJson (k : NodeKind) : Json := .obj (("type", .str k.label) :: k.parameters)

end NodeKind

namespace Node

def ofJson? (j : Json) : Option Node := do
  let r ← j.fields? ["kind", "inputs", "outputs"]
  return ⟨← r.get? "kind" NodeKind.ofJson?, ← r.get? "inputs" (Json.list? Input.ofJson?),
    ← r.get? "outputs" (Json.list? Output.ofJson?)⟩

def toJson (n : Node) : Json :=
  .obj [("kind", n.kind.toJson), ("inputs", .arr (n.inputs.map Input.toJson)),
    ("outputs", .arr (n.outputs.map Output.toJson))]

end Node

end Shading
