import Shading.Bytecode.Compile
import Shading.Engine.Group
import Shading.Scene.Config
import Shading.Scene.Defaults
import Shading.Scene.Device

/-!
# Scenes

A scene owns the shaders of a render.  Updating it compiles the shaders that were modified since
they were last compiled, and the device is handed everything that is compiled.

An update can be cancelled between two shaders.  A shader that was not reached stays modified and is
compiled by the next update, and the reasons for an update stay as well.
-/

namespace Shading

/-! ## The parts of a scene -/

/-- Why a scene has to be updated although none of its shaders is modified. -/
abbrev UpdateFlags : Type := UInt32

namespace UpdateFlags

def shaderAdded : UpdateFlags := 1
def shaderModified : UpdateFlags := 2
def backgroundModified : UpdateFlags := 4
def configModified : UpdateFlags := 8

end UpdateFlags

/-- What compiles the shaders of a scene; an engine is held as long as the scene is there. -/
inductive Backend where
  | bytecode
  | external (engine : SharedEngine)

def Backend.system : Backend → ShadingSystem
  | bytecode => .bytecode
  | external _ => .external

/-- A shader with what is remembered about its last compilation. -/
structure SceneShader where
  shader : Shader
  /-- The hash of its instructions. -/
  programHash : Option String := none
  /-- Whether it was a light that is sampled. -/
  emitting : Bool := false

/-- The shaders of a render. -/
structure Scene where
  config : SceneConfig
  backend : Backend
  attributes : AttributeIds := .empty
  shaders : Array SceneShader := #[]
  background : ShaderId
  updateFlags : UpdateFlags := 0
  /-- Whether something was compiled since the device was last updated. -/
  deviceDirty : Bool := true

namespace Scene

/-- The numbers of the default shaders. -/
def defaultIds : Shader.DefaultIds := {}

def shader? (s : Scene) (id : ShaderId) : Option Shader := (s.shaders[id]?).map (·.shader)

/-- The scene with a change to a shader.  Whether the change needs a compilation is for the caller
to say, by marking the shader modified. -/
def modifyShader (s : Scene) (id : ShaderId) (f : Shader → Shader) : Scene :=
  { s with shaders := s.shaders.modify id fun e => { e with shader := f e.shader } }

def tagUpdate (s : Scene) (flags : UpdateFlags) : Scene :=
  { s with updateFlags := s.updateFlags ||| flags }

def add (s : Scene) (shader : Shader) : ShaderId × Scene :=
  let id := s.shaders.size
  let shader := { shader with id := some id, modified := true }
  (id, { s with shaders := s.shaders.push { shader } }.tagUpdate .shaderAdded)

/-- A scene with the default shaders.  Groups need an engine from a registry. -/
def new (config : SceneConfig) (registry : Option EngineRegistry) : Except SceneError Scene := do
  let backend ←
    match config.system, registry with
    | .bytecode, _ => pure Backend.bytecode
    | .external, some r => pure (Backend.external r.engine)
    | .external, none => throw .noEngine
  let s : Scene := { config, backend, background := defaultIds.background }
  return Shader.defaults.foldl (fun s shader => (s.add shader).2) s

/-- The shaders that have to be compiled, in the order of their numbers. -/
def modified (s : Scene) : List ShaderId :=
  (List.range s.shaders.size).filter fun id => ((s.shader? id).map (·.modified)).getD false

def needsUpdate (s : Scene) : Bool := s.updateFlags != 0 || !s.modified.isEmpty

/-- Makes a shader the background.  The background is compiled differently, so the old one and the
new one have to be compiled again. -/
def setBackground (s : Scene) (id : ShaderId) : Except SceneError Scene :=
  if (s.shader? id).isNone then .error (.shaderNotFound id)
  else if id = s.background then .ok s
  else
    let tag := fun (shader : Shader) => { shader with modified := true }
    let s := (s.modifyShader s.background tag).modifyShader id tag
    .ok ({ s with background := id }.tagUpdate .backgroundModified)

/-! ## Updating -/

/-- A failed entry point of a shader. -/
structure ShaderFailure where
  shader : ShaderId
  entry : EntryPoint
  message : String
  deriving DecidableEq, Repr

/-- What an update did. -/
structure HostUpdate where
  compiled : List ShaderId := []
  failures : List ShaderFailure := []
  /-- The compiled shaders that are sampled lights now or were before. -/
  emissionChanged : List ShaderId := []
  /-- The compiled shaders that ask for other attributes than before. -/
  attributesChanged : List ShaderId := []
  /-- The compiled shaders whose instructions came out the same. -/
  unchangedPrograms : List ShaderId := []
  summaries : List (ShaderId × Summary) := []
  cancelled : Bool := false
  /-- The program ended in the update, and nothing of this is seen. -/
  crashed : Bool := false

/-- A shader that was compiled. -/
structure CompiledShader where
  shader : Shader
  program : CompiledProgram
  failures : List (EntryPoint × String)
  summary : Option Summary
  crashed : Bool

/-- Compiles a shader, which may number attributes and may load scripts. -/
def compileShader (s : Scene) (files : FileStore) (id : ShaderId) (shader : Shader) :
    CompiledShader × Scene × FileStore :=
  let background := id == s.background
  match s.backend with
  | .bytecode =>
    let (out, shader, attributes) :=
      shader.compileBytecode ⟨background, s.config.recordTrace⟩ s.attributes
    (⟨shader, .bytecode out.program, out.failures.map fun f => (f.entry, f.error.message),
      some out.summary, false⟩, { s with attributes }, files)
  | .external engine =>
    let (out, shader, host) := shader.compileGroups background ⟨engine, files⟩
    (⟨shader, .external out.program, out.reports.map fun (e, error) => (e, error.message), none,
      out.crashes⟩, { s with backend := .external host.toSharedEngine }, host.files)

/-- Whether a shader is a light that is sampled. -/
def isSampledLight (s : Shader) : Bool := s.useMis && s.flags.hasSurfaceEmission

/-- The hash of a program of instructions. -/
def programHash? : CompiledProgram → Option String
  | .bytecode p => some p.hash
  | .external _ => none

/-- Puts a compiled shader in its place. -/
def store (s : Scene) (id : ShaderId) (c : CompiledShader) : Scene :=
  let entry : SceneShader :=
    { shader := { c.shader with compiled := some c.program, modified := false }
      programHash := programHash? c.program
      emitting := isSampledLight c.shader }
  { s with shaders := s.shaders.setIfInBounds id entry }

/-- The report with a shader that was compiled; `previous` is what was known about it before. -/
def HostUpdate.add (r : HostUpdate) (id : ShaderId) (previous : SceneShader) (c : CompiledShader) :
    HostUpdate :=
  let hash := programHash? c.program
  let addIf := fun (condition : Bool) (ids : List ShaderId) => if condition then ids ++ [id] else ids
  { r with
    compiled := r.compiled ++ [id]
    failures := r.failures ++ c.failures.map fun (entry, message) => ⟨id, entry, message⟩
    emissionChanged := addIf (isSampledLight c.shader || previous.emitting) r.emissionChanged
    attributesChanged := addIf c.shader.needUpdateAttribute r.attributesChanged
    unchangedPrograms := addIf (hash.isSome && hash == previous.programHash) r.unchangedPrograms
    summaries := r.summaries ++ (c.summary.map fun summary => (id, summary)).toList
    crashed := r.crashed || c.crashed }

/-- An update under way. -/
structure UpdateState where
  scene : Scene
  files : FileStore
  report : HostUpdate := {}

/-- Compiles one shader of the scene. -/
def UpdateState.step (u : UpdateState) (id : ShaderId) : UpdateState :=
  match u.scene.shaders[id]? with
  | none => u
  | some entry =>
    let (c, scene, files) := u.scene.compileShader u.files id entry.shader
    ⟨scene.store id c, files, u.report.add id entry c⟩

/-- Compiles shaders one after another until the poll before one of them says that the update is
cancelled; polls are numbered from `n` on. -/
def UpdateState.run (cancelled : Nat → Bool) : Nat → List ShaderId → UpdateState → UpdateState
  | _, [], u => u
  | n, id :: rest, u =>
    if cancelled n then { u with report := { u.report with cancelled := true } }
    else run cancelled (n + 1) rest (u.step id)

/-- What follows the compilations: an engine compiles its groups and gets its built-in textures. -/
def finishEngine (s : Scene) : Scene :=
  match s.backend with
  | .bytecode => s
  | .external engine =>
    { s with backend := .external { engine with
      textures := engine.textures.addBuiltins
      recorder := engine.recorder.optimizeAll } }

/-- Compiles all modified shaders.  Whether the update is cancelled is asked before every one of
them. -/
def hostUpdate (s : Scene) (files : FileStore) (cancelled : Nat → Bool) :
    HostUpdate × Scene × FileStore :=
  if !s.needsUpdate then ({}, s, files)
  else
    let u := UpdateState.run cancelled 0 s.modified { scene := s, files }
    let s := u.scene.finishEngine
    (u.report,
      { s with
        deviceDirty := s.deviceDirty || !u.report.compiled.isEmpty
        updateFlags := if u.report.cancelled then s.updateFlags else 0 },
      u.files)

/-! ## The device -/

/-- What the device is handed. -/
def upload (s : Scene) (device : DeviceScene) : DeviceScene :=
  let shaders := s.shaders.toList.map (·.shader)
  { instructions :=
      match s.backend with
      | .bytecode =>
        joinPrograms (shaders.map fun sh => (sh.compiled.bind (·.bytecode?)).map (·.instructions))
      | .external _ => #[]
    shaders := shaders.map (KernelShader.ofShader · s.config.volumeDecoupled)
    groups :=
      match s.backend with
      | .bytecode => none
      | .external _ => some (.ofShaders shaders s.background defaultIds.surface)
    luminance := s.config.luminance
    uploaded := true
    uploads := device.uploads + 1 }

/-- Hands everything over to the device, unless nothing has changed since the last time. -/
def deviceUpdate (s : Scene) (device : DeviceScene) : Bool × Scene × DeviceScene :=
  if !s.deviceDirty && device.uploaded then (false, s, device)
  else (true, { s with deviceDirty := false }, s.upload device)

/-- Takes everything back from the device. -/
def deviceFree (s : Scene) (device : DeviceScene) : Scene × DeviceScene :=
  ({ s with deviceDirty := true }, device.free)

/-! ## Questions -/

/-- The bit for smooth normals in the kernel's number of a shader. -/
def smoothNormalBit : UInt32 := 0x80000000

def castShadowBit : UInt32 := 0x40000000

def areaLightBit : UInt32 := 0x20000000

/-- The kernel's number of a shader, with the bits that every shader of an object has. -/
def kernelId (s : Scene) (id : ShaderId) (smooth : Bool) : Except SceneError UInt32 :=
  if (s.shader? id).isNone then .error (.shaderNotFound id)
  else
    .ok (UInt32.ofNat id ||| castShadowBit ||| areaLightBit |||
      if smooth then smoothNormalBit else 0)

/-- What the kernel has to support for a shader. -/
def shaderFeatures (s : Shader) : UInt32 :=
  let nodes := s.graph.net.ids.filterMap s.graph.net.node?
  let bit := fun (condition : Bool) (feature : UInt32) => if condition then feature else 0
  nodes.foldl (fun f node => f ||| node.kind.features) 0 |||
    bit s.flags.hasVolume Feature.volume |||
    bit s.flags.hasSurfaceTransparent Feature.transparent |||
    bit s.flags.hasSurfaceBssrdf Feature.subsurface |||
    bit s.flags.hasSurfaceRaytrace Feature.nodeRaytrace |||
    bit (s.flags.hasBump && s.displacementMethod == .both) Feature.nodeBumpState

/-- What the kernel has to support for all shaders as they were last compiled. -/
def features (s : Scene) : UInt32 :=
  s.shaders.toList.foldl (fun f e => f ||| shaderFeatures e.shader)
      (Feature.nodeBsdf ||| Feature.nodeEmission) |||
    match s.backend with
    | .bytecode => 0
    | .external _ => Feature.externalEngine

/-- Loads a script and makes a node whose sockets are its parameters. -/
def scriptNode (s : Scene) (files : FileStore) (input : EngineHost.ScriptInput) :
    Except SceneError Node × Scene × FileStore :=
  match s.backend with
  | .bytecode => (.error .scriptsNeedEngine, s, files)
  | .external engine =>
    match (EngineHost.scriptNode input).run ⟨engine, files⟩ with
    | .ok node host => (.ok node, { s with backend := .external host.toSharedEngine }, host.files)
    | .error e host =>
      (.error (.script e), { s with backend := .external host.toSharedEngine }, host.files)

end Scene

end Shading
