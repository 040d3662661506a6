import Shading.Engine.Host
import Shading.Shader.Basic
import Shading.Walk.Schedule

/-!
# Compiling shaders to groups of layers

Every linked entry point becomes a group in the external engine.  Every node that the terminal
depends on becomes a layer: the unlinked inputs are bound as parameters, the layer is added, and its
linked inputs are connected to the layers that feed them.  The output node comes last.

A script that cannot be loaded is left out of the group as if it were not in the graph.  Any other
failure drops the entry point with its flags and attributes; the group is closed all the same, and
what the engine was told stays told.

One failure is no error: a link may start at an output that its node does not have, and asking for
the name of that output ends the program.  It is kept apart as a crash.
-/

namespace Shading

/-! ## Errors -/

/-- What is reported of an entry point that has no group. -/
inductive EngineError where
  | param (error : ParamError)
  | rejected (error : Rejection)
  | graph (error : GraphError)
  deriving DecidableEq, Repr

def EngineError.message : EngineError → String
  | param e => e.message
  | rejected e => e.message
  | graph e => e.message

/-- Why an entry point has no group. -/
inductive GroupFault where
  | error (error : EngineError)
  /-- A link starts at an output that its node does not have.  The program ends here: nothing is
  reported, and what the construction does afterwards is never seen. -/
  | crash (node : NodeId) (output : Nat)
  deriving DecidableEq, Repr

def GroupFault.error? : GroupFault → Option EngineError
  | error e => some e
  | crash .. => none

/-! ## Names -/

/-- The name of a node's layer. -/
def Node.layerName (node : Node) (id : NodeId) : String :=
  "node_" ++ node.kind.typeName ++ "_" ++ toString id

/-- The name without spaces. -/
def dropSpaces (name : String) : String := String.ofList (name.toList.filter (· != ' '))

/-- The engine's name of an input: parameters and results share a space of names there, so a name
that is also an output's is told apart by a suffix. -/
def Node.engineInput (node : Node) (name : String) : String :=
  dropSpaces name ++ if node.outputs.any fun o => o.name == name then "In" else ""

/-- The engine's name of an output. -/
def Node.engineOutput (node : Node) (name : String) : String :=
  dropSpaces name ++ if node.inputs.any fun i => i.name == name then "Out" else ""

/-- What the group of an entry point is for. -/
def EntryPoint.usage : EntryPoint → ShaderUsage
  | .surface | .volume => .surface
  | .bump | .displacement => .displacement

/-- The shader that stands for a node which is no script.  The output node has one for every entry
point. -/
def NodeKind.engineShader (entry : EntryPoint) : NodeKind → String
  | .output => "node_output_" ++ entry.name
  | kind => "node_" ++ kind.typeName

/-! ## Groups under construction -/

/-- What stays fixed while a group is built. -/
structure GroupContext where
  graph : Graph
  entry : EntryPoint
  background : Bool

abbrev GroupContext.net (ctx : GroupContext) : Network := ctx.graph.net

/-- A group under construction. -/
structure GroupState where
  host : EngineHost
  done : NodeSet := .empty
  /-- The scripts that were left out. -/
  absent : NodeSet := .empty
  flags : ShaderFlags := {}
  requests : AttributeSet := .empty

/-- A step of the construction. -/
abbrev GroupM (α : Type) : Type := EStateM GroupFault GroupState α

namespace GroupM

/-- A step that only asks the graph. -/
def ofGraph {α : Type} : Except GraphError α → GroupM α
  | .ok a => return a
  | .error e => throw (.error (.graph e))

def tell (call : Recorder → Except Rejection Recorder) : GroupM Unit := do
  let s ← get
  match call s.host.recorder with
  | .ok recorder => set { s with host := { s.host with recorder } }
  | .error e => throw (.error (.rejected e))

def bind (name : String) (value : Param) : GroupM Unit := tell (·.parameter name value)

/-- Registers an image and returns its name. -/
def registerImage (slot : UInt32) : GroupM String :=
  modifyGet fun s =>
    let (name, textures) := s.host.textures.register slot
    (name, { s with host := { s.host with textures } })

/-- The name of a script in the engine, or nothing if it cannot be loaded. -/
def loadScript (source : ScriptSource) : GroupM (Option String) :=
  modifyGet fun s =>
    match (EngineHost.loadSourceOf source).run s.host with
    | .ok key host => (some key, { s with host })
    | .error _ host => (none, { s with host })

def addFlags (flags : ShaderFlags) : GroupM Unit :=
  modify fun s => { s with flags := s.flags.union flags }

/-- Binds the settings of a node's kind. -/
def bindKind (background : Bool) : NodeKind → GroupM Unit
  | .value v => bind "value_value" (.float v)
  | .rgb color => bind "color_value" (.vec3 .color color)
  | .math op useClamp => do
    bind "math_type" (.string op.name)
    bind "use_clamp" (.bool useClamp)
  | .vectorMath op => bind "math_type" (.string op.name)
  | .mixRgb blend useClamp => do
    bind "mix_type" (.string blend.name)
    bind "use_clamp" (.bool useClamp)
  | .namedAttribute name => bind "name" (.attributeName name)
  | .textureCoordinate fromDupli objectTransform => do
    bind "is_background" (.bool background)
    bind "from_dupli" (.bool fromDupli)
    bind "use_transform" (.bool objectTransform.isSome)
    if let some t := objectTransform then bind "object_itfm" (.matrix t)
  | .imageTexture slot _ colorspace => do
    bind "filename" (.string (← registerImage slot))
    bind "colorspace" (.string colorspace)
  | .ambientOcclusion samples onlyLocal => do
    bind "samples" (.int samples.toInt32)
    bind "only_local" (.bool onlyLocal)
  | .bump invert useObjectSpace => do
    bind "invert" (.bool invert)
    bind "use_object_space" (.bool useObjectSpace)
  | .bumpFromDisplacement useObjectSpace | .displacement useObjectSpace =>
    bind "use_object_space" (.bool useObjectSpace)
  | _ => return

end GroupM

namespace GroupContext

open GroupM

/-- The inputs that the group does not use: internal ones, the terminals of other entry points,
and, in the displacement group, what is fed by a bump. -/
def skips (ctx : GroupContext) (id : NodeId) (input : Nat) : Bool :=
  match ctx.graph.net.node? id with
  | none => true
  | some node =>
    match node.inputs[input]? with
    | none => true
    | some socket =>
      if socket.internal then true
      else if node.kind.special = .output then socket.name != ctx.entry.terminal
      else
        ctx.entry == .displacement &&
          match (ctx.graph.net.inputLink? id input).bind fun l => ctx.graph.net.node? l.1 with
          | some source => source.kind.special == .bump
          | none => false

/-- Binds the constant of an unlinked input. -/
def bindInput (ctx : GroupContext) (id : NodeId) (node : Node) (input : Nat) (socket : Input) :
    GroupM Unit := do
  if socket.ty = .closure || ctx.graph.net.isInputLinked id input || ctx.skips id input then return
  let name := node.engineInput socket.name
  match socket.value.toParam name socket.ty with
  | .ok value => GroupM.bind name value
  | .error e => throw (.error (.param e))

/-- Connects a linked input to the layer that feeds it. -/
def connectInput (ctx : GroupContext) (id : NodeId) (node : Node) (input : Nat) (socket : Input) :
    GroupM Unit := do
  if ctx.skips id input then return
  match ctx.graph.net.inputLink? id input with
  | none => return
  | some (source, output) =>
    if (← get).absent.contains source then return
    let sourceNode ← ofGraph (ctx.graph.require source)
    match sourceNode.outputs[output]? with
    | none => throw (.crash source output)
    | some result =>
      tell (·.connect (sourceNode.layerName source) (sourceNode.engineOutput result.name)
        (node.layerName id) (node.engineInput socket.name))

/-- Adds the layer of a node, which runs the named shader. -/
def addLayer (ctx : GroupContext) (id : NodeId) (node : Node) (shader : String) : GroupM Unit := do
  node.inputs.zipIdx.forM fun (socket, input) => ctx.bindInput id node input socket
  tell (·.shader ctx.entry.usage shader (node.layerName id))
  node.inputs.zipIdx.forM fun (socket, input) => ctx.connectInput id node input socket

/-- The flags of a script in the surface group.  What it does with its normal and whether it casts
rays cannot be seen, so both are assumed. -/
def scriptFlags (script : LoadedScript) : ShaderFlags where
  hasSurfaceEmission := script.hasEmission
  hasSurfaceTransparent := script.hasTransparent
  hasSurfaceBssrdf := script.hasSubsurface
  hasBssrdfBump := script.hasSubsurface
  hasBump := true
  hasSurfaceRaytrace := true

/-- Adds the layer of a script, or leaves it out if it cannot be loaded. -/
def addScript (ctx : GroupContext) (id : NodeId) (node : Node) (source : ScriptSource) :
    GroupM Unit := do
  match ← loadScript source with
  | none => modify fun s => { s with absent := s.absent.insert id }
  | some key =>
    ctx.addLayer id node key
    if ctx.entry = .surface then
      if let some script := (← get).host.cache.loaded? key then addFlags (scriptFlags script)

def addNode (ctx : GroupContext) (id : NodeId) : GroupM Unit := do
  let node ← ofGraph (ctx.graph.require id)
  match node.kind with
  | .script source => ctx.addScript id node source
  | kind =>
    bindKind ctx.background kind
    ctx.addLayer id node (kind.engineShader ctx.entry)

/-- The flags that a node sets in the group. -/
def nodeFlags (ctx : GroupContext) (id : NodeId) (kind : NodeKind) : ShaderFlags :=
  let own : ShaderFlags :=
    match ctx.entry with
    | .surface =>
      { hasSurfaceEmission := kind.emitsSurface
        hasSurfaceTransparent := kind.isTransparent
        hasSurfaceRaytrace := kind.castsRays
        hasSurfaceSpatialVarying := kind.variesInSpace
        hasSurfaceBssrdf := kind.isSubsurface
        hasBssrdfBump := kind.isSubsurface && ctx.graph.hasBump id
        hasBump := ctx.graph.hasBump id }
    | .volume =>
      { hasVolumeSpatialVarying := kind.variesInSpace
        hasVolumeAttributeDependency := kind.readsAttributes }
    | .bump | .displacement => {}
  { own with hasIntegratorDependency := kind.readsIntegrator }

/-- Adds a node whose sources are done, with its flags and attributes. -/
def emitNode (ctx : GroupContext) (id : NodeId) : GroupM Unit := do
  ctx.addNode id
  if !(← get).absent.contains id then
    let node ← ofGraph (ctx.graph.require id)
    addFlags (ctx.nodeFlags id node.kind)
    modify fun s => { s with requests := ctx.graph.addAttributes ctx.background s.requests id }
  modify fun s => { s with done := s.done.insert id }

/-- How sets of nodes are added. -/
def emission (ctx : GroupContext) : Emission GroupFault GroupState where
  sources := ctx.graph.net.sources ctx.skips
  isDone := fun s id => s.done.contains id
  emit := ctx.emitNode
  stuck := fun remaining => .error (.graph (.unschedulable remaining))

/-- Adds everything that the terminal depends on, and the output node. -/
def addAll (ctx : GroupContext) : GroupM Unit := do
  let output := ctx.graph.output
  let (terminal, _) ← ofGraph (ctx.graph.requireInput output ctx.entry.terminal)
  let s ← get
  let nodes := ctx.graph.net.dependencies ctx.skips s.done.contains .empty output terminal none
  let _ ← ctx.emission.schedule nodes
  ctx.addNode output

def beginGroup (name : String) : GroupM GroupId := do
  let s ← get
  match s.host.recorder.begin name with
  | .ok (group, recorder) =>
    set { s with host := { s.host with recorder } }
    return group
  | .error e => throw (.error (.rejected e))

/-- Builds the group.  It is closed also when something fails in it, and that failure is the one
reported. -/
def build (ctx : GroupContext) (name : String) : GroupM GroupId := do
  let group ← beginGroup name
  try ctx.addAll
  catch fault =>
    try tell Recorder.endGroup catch _ => pure ()
    throw fault
  tell Recorder.endGroup
  return group

end GroupContext

/-! ## Shaders -/

/-- An entry point that failed, and why. -/
structure GroupFailure where
  entry : EntryPoint
  fault : GroupFault
  deriving DecidableEq, Repr

/-- What the groups built so far amount to. -/
structure GroupResults where
  host : EngineHost
  flags : ShaderFlags
  requests : AttributeSet := .empty
  groups : EntryTable GroupId := {}
  /-- The failures, the latest in front. -/
  failures : List GroupFailure := []

/-- The flag of an entry point that has a group. -/
def EntryPoint.groupFlags : EntryPoint → ShaderFlags
  | .surface => { hasSurface := true }
  | .volume => { hasVolume := true }
  | .displacement => { hasDisplacement := true }
  | .bump => {}

/-- Builds the group of one entry point, if something is linked to it.  A bump group is built only
together with a surface group. -/
def GroupResults.addEntry (shader : Shader) (background : Bool) (r : GroupResults)
    (e : EntryPoint) : GroupResults :=
  if !shader.isTerminalLinked e || (e == .bump && r.groups.surface.isNone) then r
  else
    let ctx : GroupContext := ⟨shader.graph, e, background⟩
    match (ctx.build shader.name).run { host := r.host } with
    | .ok group s =>
      { r with
        host := s.host
        flags := r.flags.union (s.flags.union e.groupFlags)
        requests := r.requests.union s.requests
        groups := r.groups.insert e group }
    | .error fault s => { r with host := s.host, failures := ⟨e, fault⟩ :: r.failures }

/-- What a compilation gives. -/
structure GroupOutput where
  program : ExternalProgram
  failures : List GroupFailure

namespace GroupOutput

def isComplete (o : GroupOutput) : Bool := o.failures.isEmpty

/-- Whether the program ends before the compilation does. -/
def crashes (o : GroupOutput) : Bool := o.failures.any fun f => f.fault.error?.isNone

/-- The failed entry points with the errors that are reported. -/
def reports (o : GroupOutput) : List (EntryPoint × EngineError) :=
  o.failures.filterMap fun f => f.fault.error?.map fun e => (f.entry, e)

end GroupOutput

/-- Prepares a shader and compiles it to groups in the engine.  The shader's flags and attributes
are those of the compilation; the program is not stored in it. -/
def Shader.compileGroups (s : Shader) (background : Bool) (host : EngineHost) :
    GroupOutput × Shader × EngineHost :=
  let hasBump := s.needsBump
  let s := s.prepare
  let r := EntryPoint.all.foldl (GroupResults.addEntry s background)
    { host, flags := { hasBump, hasBssrdfBump := hasBump } }
  (⟨⟨r.groups⟩, r.failures.reverse⟩, { s with flags := r.flags }.updateAttributes r.requests, r.host)

end Shading
