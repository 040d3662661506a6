import Shading.Bytecode.Section
import Shading.Text.Blank

/-!
# What each kind of node compiles to

One function per family of kinds.  The order in which inputs and outputs are assigned decides which
slots they get, so it is part of what a kind compiles to.
-/

namespace Shading.SectionContext

open Emit

/-- A slot as an operand. -/
def slotWord (slot : Nat) : Int32 := Int32.ofNat slot

def noSlot : Int32 := slotWord Stack.invalid

/-- Reads of a whole vector, as an operand of attribute reads. -/
def wideRead : Int32 := 0

/-- Reads of one number, as an operand of attribute reads. -/
def narrowRead : Int32 := 1

/-! ## Inputs -/

def emitAttributeRead (key : AttributeKey) (slot : Nat) (width : Int32) : Emit Unit := do
  op .attr (← attributeWord key) (slotWord slot) width

/-- A named attribute, in each of the forms that something uses. -/
def emitAttribute (ctx : SectionContext) (id : NodeId) (name : String) : Emit Unit := do
  let word ← attributeWord (.ofName name)
  for (output, width) in [("Color", wideRead), ("Vector", wideRead), ("Fac", narrowRead)] do
    if ctx.isOutputLinked id output then
      let slot ← ctx.assignOutput id output
      op .attr word (slotWord slot) width

/-- Generated coordinates: the position for the background, an attribute for anything else. -/
def emitGenerated (ctx : SectionContext) (slot : Nat) : Emit Unit :=
  if ctx.background then op .geometry 0 (slotWord slot) 0
  else emitAttributeRead (.standard .generated) slot wideRead

/-- Texture coordinates, each that something uses. -/
def emitTextureCoordinate (ctx : SectionContext) (id : NodeId) (transform : Option Transform) :
    Emit Unit := do
  if ctx.isOutputLinked id "Generated" then
    ctx.emitGenerated (← ctx.assignOutput id "Generated")
  if ctx.isOutputLinked id "Normal" then
    op .texCoord 0 (slotWord (← ctx.assignOutput id "Normal")) 0
  if ctx.isOutputLinked id "UV" then
    emitAttributeRead (.standard .uv) (← ctx.assignOutput id "UV") wideRead
  if ctx.isOutputLinked id "Object" then
    let slot ← ctx.assignOutput id "Object"
    op .texCoord 1 (slotWord slot) (Instruction.boolWord transform.isSome)
    if let some t := transform then
      for row in t.rows.toList do
        push (Instruction.vec4 row)

/-- Quantities that the machine knows, each that something uses; the operand of one is its
position in the list. -/
def emitQueries (ctx : SectionContext) (id : NodeId) (opcode : Opcode) (outputs : List String) :
    Emit Unit :=
  for (output, query) in outputs.zipIdx do
    if ctx.isOutputLinked id output then
      op opcode (Int32.ofNat query) (slotWord (← ctx.assignOutput id output)) 0

/-! ## Textures -/

/-- The slot of a texture's coordinate, and whether it was taken for the occasion.  An unlinked
coordinate is read by `fallback`. -/
def assignCoordinate (ctx : SectionContext) (id : NodeId) (fallback : Nat → Emit Unit) :
    Emit (Nat × Bool) := do
  if ctx.isLinked id "Vector" then return (← ctx.assignInput id "Vector", false)
  else
    let slot ← claim 3
    fallback slot
    return (slot, true)

/-- Gives back a coordinate that was taken for the occasion. -/
def releaseCoordinate (coordinate : Nat × Bool) : Emit Unit :=
  if coordinate.2 then release coordinate.1 3 else return

/-- An image.  One bit of the flags asks for a conversion of colors, the other says that the alpha
is used. -/
def emitImage (ctx : SectionContext) (id : NodeId) (slot : UInt32) (colorspace : String) :
    Emit Unit := do
  let coordinate ← ctx.assignCoordinate id fun slot =>
    emitAttributeRead (.standard .uv) slot wideRead
  let color ← ctx.assignOutputIfLinked id "Color"
  let alpha ← ctx.assignOutputIfLinked id "Alpha"
  let encoded := if Text.lowerAscii colorspace = "srgb" then 1 else 0
  let flags := encoded + if alpha = Stack.invalid then 0 else 2
  op .texImage slot.toInt32 (← pack coordinate.1 color alpha flags) 0
  releaseCoordinate coordinate

def emitChecker (ctx : SectionContext) (id : NodeId) : Emit Unit := do
  let coordinate ← ctx.assignCoordinate id ctx.emitGenerated
  let color1 ← ctx.assignInput id "Color1"
  let color2 ← ctx.assignInput id "Color2"
  let scale ← ctx.assignInput id "Scale"
  let color ← ctx.assignOutputIfLinked id "Color"
  let factor ← ctx.assignOutputIfLinked id "Fac"
  let inputs ← pack coordinate.1 color1 color2 scale
  let outputs ← pack color factor 0 0
  op .texChecker inputs outputs 0
  releaseCoordinate coordinate

/-! ## Closures -/

def emitSetWeight (v : Vec3) : Emit Unit :=
  op .closureSetWeight (Instruction.floatWord v.x) (Instruction.floatWord v.y)
    (Instruction.floatWord v.z)

/-- The color of a closure: read if it is linked, a constant otherwise. -/
def emitClosureColor (ctx : SectionContext) (id : NodeId) (node : Node) : Emit Unit := do
  if ctx.isLinked id "Color" then
    op .closureWeight (slotWord (← ctx.assignInput id "Color")) 0 0
  else emitSetWeight (node.vec3 "Color")

/-- The slot of a parameter that some closures have. -/
def assignParameter (ctx : SectionContext) (id : NodeId) : Option String → Emit Nat
  | some name => ctx.assignInput id name
  | none => return Stack.invalid

/-- The constant of a parameter that some closures have. -/
def parameterWord (node : Node) : Option String → Int32
  | some name => Instruction.floatWord (node.float name)
  | none => 0

/-- A closure that scatters light at a surface. -/
def emitBsdf (ctx : SectionContext) (id : NodeId) (node : Node) (closure : ClosureType)
    (first second : Option String) : Emit Unit := do
  ctx.emitClosureColor id node
  let normal ← ctx.assignInputIfLinked id "Normal"
  let slot1 ← ctx.assignParameter id first
  let slot2 ← ctx.assignParameter id second
  let weight ← closureWeight
  let operands ← pack closure.code slot1 slot2 weight
  op .closureBsdf operands (parameterWord node first) (parameterWord node second)
  push ⟨slotWord normal, noSlot, noSlot, noSlot⟩

/-- A closure that emits light. -/
def emitEmission (ctx : SectionContext) (id : NodeId) (node : Node) (opcode : Opcode) :
    Emit Unit := do
  if ctx.isLinked id "Color" || ctx.isLinked id "Strength" then
    let color ← ctx.assignInput id "Color"
    let strength ← ctx.assignInput id "Strength"
    op .emissionWeight (slotWord color) (slotWord strength) 0
  else emitSetWeight ((node.vec3 "Color").scale (node.float "Strength"))
  op opcode (slotWord (← closureWeight)) 0 0

/-- A closure inside a volume. -/
def emitVolume (ctx : SectionContext) (id : NodeId) (node : Node) (closure : ClosureType)
    (second : Option String) : Emit Unit := do
  ctx.emitClosureColor id node
  let density ← ctx.assignInput id "Density"
  let slot2 ← ctx.assignParameter id second
  let weight ← closureWeight
  let operands ← pack closure.code density slot2 weight
  op .closureVolume operands (parameterWord node (some "Density")) (parameterWord node second)

/-! ## Bumps and scripts -/

/-- A perturbed normal.  Without strength a linked normal passes through. -/
def emitBump (ctx : SectionContext) (id : NodeId) (node : Node) (invert useObjectSpace : Bool) :
    Emit Unit := do
  if !ctx.isLinked id "Strength" && node.float "Strength" == 0 && ctx.isLinked id "Normal" then
    ctx.shareOutput id "Normal" "Normal"
  else
    let normal ← ctx.assignInputIfLinked id "Normal"
    let distance ← ctx.assignInput id "Distance"
    let height ← ctx.assignInput id "Height"
    let strength ← ctx.assignInput id "Strength"
    let slot ← ctx.assignOutput id "Normal"
    let settings ← pack normal distance invert.toNat useObjectSpace.toNat
    let values ← pack height strength 0 0
    op .setBump settings values (slotWord slot)

/-- A script, which the machine cannot run: the outputs that something uses are zero. -/
def emitScript (ctx : SectionContext) (id : NodeId) (node : Node) : Emit Unit :=
  for output in node.outputs do
    if ctx.isOutputLinked id output.name then
      let slot ← ctx.assignOutput id output.name
      if output.ty.isVec3 then
        op .valueV (slotWord slot) 0 0
        push (.vec3 Vec3.zero)
      else op .valueF (Instruction.floatWord 0) (slotWord slot) 0

/-! ## All kinds -/

/-- The instructions of a node. -/
def emitNode (ctx : SectionContext) (id : NodeId) (node : Node) : Emit Unit := do
  match node.kind with
  | .output | .mixClosure | .addClosure => return
  | .value v =>
    let slot ← ctx.assignOutput id "Value"
    op .valueF (Instruction.floatWord v) (slotWord slot) 0
  | .rgb color =>
    let slot ← ctx.assignOutput id "Color"
    op .valueV (slotWord slot) 0 0
    push (.vec3 color)
  | .math operation useClamp =>
    let value1 ← ctx.assignInput id "Value1"
    let value2 ← ctx.assignInput id "Value2"
    let slot ← ctx.assignOutput id "Value"
    let operands ← pack value1 value2 useClamp.toNat 0
    op .math (Int32.ofNat (MathOp.all.idxOf operation)) operands (slotWord slot)
  | .vectorMath operation =>
    let vector1 ← ctx.assignInput id "Vector1"
    let vector2 ← ctx.assignInput id "Vector2"
    let value ← ctx.assignOutputIfLinked id "Value"
    let vector ← ctx.assignOutputIfLinked id "Vector"
    let operands ← pack vector1 vector2 value vector
    op .vectorMath (Int32.ofNat (VectorMathOp.all.idxOf operation)) operands 0
  | .mixRgb blend useClamp =>
    let factor ← ctx.assignInput id "Fac"
    let color1 ← ctx.assignInput id "Color1"
    let color2 ← ctx.assignInput id "Color2"
    let slot ← ctx.assignOutput id "Color"
    op .mix (slotWord factor) (slotWord color1) (slotWord color2)
    op .mix (Int32.ofNat (MixBlend.all.idxOf blend)) (Instruction.boolWord useClamp) (slotWord slot)
  | .namedAttribute name => ctx.emitAttribute id name
  | .textureCoordinate _ transform => ctx.emitTextureCoordinate id transform
  | .geometry => ctx.emitQueries id .geometry ["Position", "Normal", "Incoming", "Backfacing"]
  | .lightPath => ctx.emitQueries id .lightPath ["IsCameraRay", "IsShadowRay", "RayLength"]
  | .imageTexture slot _ colorspace => ctx.emitImage id slot colorspace
  | .checkerTexture => ctx.emitChecker id
  | .ambientOcclusion samples onlyLocal =>
    let color ← ctx.assignInput id "Color"
    let distance ← ctx.assignInput id "Distance"
    let normal ← ctx.assignInputIfLinked id "Normal"
    let colorOut ← ctx.assignOutputIfLinked id "Color"
    let factorOut ← ctx.assignOutputIfLinked id "AO"
    let inputs ← pack onlyLocal.toNat color distance normal
    let outputs ← pack colorOut factorOut 0 0
    op .ambientOcclusion inputs outputs samples.toInt32
  | .diffuseBsdf => ctx.emitBsdf id node .diffuse (some "Roughness") none
  | .glossyBsdf => ctx.emitBsdf id node .glossy (some "Roughness") none
  | .transparentBsdf => ctx.emitBsdf id node .transparent none none
  | .subsurfaceScattering => ctx.emitBsdf id node .bssrdf (some "Scale") (some "Radius")
  | .emission => ctx.emitEmission id node .closureEmission
  | .background => ctx.emitEmission id node .closureBackground
  | .holdout =>
    let weight ← closureWeight
    emitSetWeight Vec3.one
    op .closureHoldout (slotWord weight) 0 0
  | .absorptionVolume => ctx.emitVolume id node .volumeAbsorption none
  | .scatterVolume => ctx.emitVolume id node .volumeScatter (some "Anisotropy")
  | .mixClosureWeight =>
    let factor ← ctx.assignInput id "Fac"
    let weight ← ctx.assignInput id "Weight"
    let weight1 ← ctx.assignOutput id "Weight1"
    let weight2 ← ctx.assignOutput id "Weight2"
    op .mixClosure (← pack factor weight weight1 weight2) 0 0
  | .bump invert useObjectSpace => ctx.emitBump id node invert useObjectSpace
  | .bumpFromDisplacement useObjectSpace =>
    let displacement ← ctx.assignInput id "Displacement"
    let slot ← ctx.assignOutput id "Normal"
    op .bumpFromDisplacement (slotWord displacement) (slotWord slot)
      (Instruction.boolWord useObjectSpace)
  | .displacement useObjectSpace =>
    let height ← ctx.assignInput id "Height"
    let midlevel ← ctx.assignInput id "Midlevel"
    let scale ← ctx.assignInput id "Scale"
    let normal ← ctx.assignInputIfLinked id "Normal"
    let slot ← ctx.assignOutput id "Displacement"
    let operands ← pack height midlevel scale normal
    op .displacement operands (slotWord slot) (Instruction.boolWord useObjectSpace)
  | .script _ => ctx.emitScript id node

/-- What the output node does at the end of a section. -/
def emitOutput (ctx : SectionContext) (output : NodeId) : Emit Unit := do
  match ctx.entry with
  | .displacement =>
    if ctx.isLinked output "Displacement" then
      op .setDisplacement (slotWord (← ctx.assignInput output "Displacement")) 0 0
  | .bump =>
    if ctx.isLinked output "Normal" then
      op .closureSetNormal (slotWord (← ctx.assignInput output "Normal")) 0 0
  | .surface | .volume => return

end Shading.SectionContext
