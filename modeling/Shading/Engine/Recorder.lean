import Shading.Engine.Param
import Shading.Shader.Program

/-!
# An engine that records what it is told

The external engine builds groups of layers.  A group is opened, parameters are bound for the next
layer, the layer is added, its inputs are linked to layers that are there already, and the group is
closed.  `Recorder` is an engine that checks this order and keeps every call that it accepts.

A refused call changes nothing: neither the state nor the record.  How many parameters are bound
without a layer is not counted: that number only goes into a warning, and no answer depends on it.
-/

namespace Shading

/-- What a group of layers is for. -/
inductive ShaderUsage where
  | surface | displacement
  deriving DecidableEq, Repr

namespace ShaderUsage

def all : List ShaderUsage := [surface, displacement]

def name : ShaderUsage → String
  | surface => "surface"
  | displacement => "displacement"

def label : ShaderUsage → String
  | surface => "Surface"
  | displacement => "Displacement"

def ofJson? (j : Json) : Option ShaderUsage := j.enum? all label

end ShaderUsage

/-- A call that the engine accepted. -/
inductive EngineCall where
  | option (name : String) (value : Param)
  | groupBegin (name : String) (group : GroupId)
  | parameter (name : String) (value : Param)
  | shader (usage : ShaderUsage) (shader layer : String)
  | connect (fromLayer fromParam toLayer toParam : String)
  | groupEnd
  | loadBytecode (name : String)
  | optimizeAll
  deriving DecidableEq

/-- A call as a document: its name and its arguments. -/
def EngineCall.toJson : EngineCall → Json
  | option name value => .arr [.str "attribute", .str name, value.toJson]
  | groupBegin name group =>
    .arr [.str "group_begin", .str name, .str (ExternalProgram.groupName group)]
  | parameter name value => .arr [.str "parameter", .str name, value.toJson]
  | shader usage name layer => .arr [.str "shader", .str usage.name, .str name, .str layer]
  | connect fromLayer fromParam toLayer toParam =>
    .arr [.str "connect", .str fromLayer, .str fromParam, .str toLayer, .str toParam]
  | groupEnd => .arr [.str "group_end"]
  | loadBytecode name => .arr [.str "load", .str name]
  | optimizeAll => .arr [.str "optimize"]

/-- Why the engine refuses a call. -/
inductive Rejection where
  /-- The named call needs an open group. -/
  | noGroup (call : String)
  | groupOpen
  | inconsistent (name : String) (ty : ParamType) (held : Nat)
  | duplicateLayer (layer : String)
  | unknownLayer (layer : String)
  deriving DecidableEq, Repr

namespace Rejection

/-- The call that was refused. -/
def call : Rejection → String
  | noGroup call => call
  | groupOpen => "shader_group_begin"
  | inconsistent .. => "parameter"
  | duplicateLayer _ => "shader"
  | unknownLayer _ => "connect_shaders"

/-- What was wrong with it. -/
def reason : Rejection → String
  | noGroup _ => "no shader group is open"
  | groupOpen => "a shader group is already open"
  | inconsistent name ty held =>
    "'" ++ name ++ "' declared " ++ ty.name ++ " but holds " ++ toString held ++ " values"
  | duplicateLayer layer => "duplicate layer '" ++ layer ++ "'"
  | unknownLayer layer => "unknown layer '" ++ layer ++ "'"

/-- The text of a refusal. -/
def message (r : Rejection) : String := "shading engine rejected " ++ r.call ++ ": " ++ r.reason

end Rejection

/-- The state of the recording engine. -/
structure Recorder where
  /-- All accepted calls, the earliest first. -/
  calls : Array EngineCall := #[]
  /-- The group that is being built. -/
  openGroup : Option GroupId := none
  /-- The layers of the group that was begun last. -/
  layers : OrderedSet String := .empty
  /-- The next group's number, and the number of groups begun. -/
  nextGroup : GroupId := 0
  /-- The names under which shaders were loaded. -/
  loaded : OrderedSet String := .empty

namespace Recorder

def record (e : Recorder) (call : EngineCall) : Recorder := { e with calls := e.calls.push call }

def isLoaded (e : Recorder) (name : String) : Bool := e.loaded.contains name

/-- Refuses a call while no group is open. -/
def requireOpen (e : Recorder) (call : String) : Except Rejection Unit :=
  if e.openGroup.isSome then .ok () else .error (.noGroup call)

def setAttribute (e : Recorder) (name : String) (value : Param) : Recorder :=
  e.record (.option name value)

def begin (e : Recorder) (name : String) : Except Rejection (GroupId × Recorder) :=
  if e.openGroup.isSome then .error .groupOpen
  else
    let e := { e with
      openGroup := some e.nextGroup
      layers := .empty
      nextGroup := e.nextGroup + 1 }
    .ok (e.nextGroup - 1, e.record (.groupBegin name (e.nextGroup - 1)))

def parameter (e : Recorder) (name : String) (value : Param) : Except Rejection Recorder := do
  e.requireOpen "parameter"
  if value.isConsistent then return e.record (.parameter name value)
  else throw (.inconsistent name value.ty value.data.length)

def shader (e : Recorder) (usage : ShaderUsage) (shader layer : String) :
    Except Rejection Recorder := do
  e.requireOpen "shader"
  if e.layers.contains layer then throw (.duplicateLayer layer)
  else
    let e := { e with layers := e.layers.insert layer }
    return e.record (.shader usage shader layer)

/-- Links an output of one layer to an input of another. -/
def connect (e : Recorder) (fromLayer fromParam toLayer toParam : String) :
    Except Rejection Recorder := do
  e.requireOpen "connect_shaders"
  if !e.layers.contains fromLayer then throw (.unknownLayer fromLayer)
  else if !e.layers.contains toLayer then throw (.unknownLayer toLayer)
  else return e.record (.connect fromLayer fromParam toLayer toParam)

def endGroup (e : Recorder) : Except Rejection Recorder := do
  e.requireOpen "shader_group_end"
  return { e with openGroup := none }.record .groupEnd

def load (e : Recorder) (name : String) : Recorder :=
  { e with loaded := e.loaded.insert name }.record (.loadBytecode name)

/-- Compiles all groups built so far. -/
def optimizeAll (e : Recorder) : Recorder := e.record .optimizeAll

end Recorder

end Shading
