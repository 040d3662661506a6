import Shading.Engine.Registry
import Shading.Json.Parser
import Shading.Scene.Error

/-!
# Configurations

How the shaders of a scene are compiled.  A configuration is read from a document, in which
everything may be left out, or from the variables of the environment, which know fewer settings.
-/

namespace Shading

/-- What shaders are compiled to. -/
inductive ShadingSystem where
  /-- Instructions. -/
  | bytecode
  /-- Groups in an external engine. -/
  | external
  deriving DecidableEq, Repr

namespace ShadingSystem

def all : List ShadingSystem := [bytecode, external]

def name : ShadingSystem → String
  | bytecode => "svm"
  | external => "osl"

/-- The system with a name in any case. -/
def ofName (value : String) : Except SceneError ShadingSystem :=
  match all.find? fun s => s.name == Text.lowerAscii value with
  | some s => .ok s
  | none => .error (.unknownSystem value)

end ShadingSystem

/-- How the shaders of a scene are compiled. -/
structure SceneConfig where
  system : ShadingSystem := .bytecode
  /-- The directory of the shaders that stand for the kinds of nodes. -/
  shaderDirectory : Option String := none
  /-- The directory in which scripts are looked up by name. -/
  userDirectory : Option String := none
  /-- The program that compiles script sources. -/
  compiler : String := "oslc"
  /-- Whether shaders may be compiled at the same time.  Then the numbers of attribute names depend
  on which shader meets a name first; here the shaders are compiled one after the other. -/
  parallel : Bool := true
  /-- Keep all accesses to the stack. -/
  recordTrace : Bool := false
  /-- The weights of red, green and blue in the brightness of a color. -/
  luminance : Vec3 := ⟨0.2126729, 0.7151522, 0.072175⟩
  /-- The device chooses points in volumes apart from shading. -/
  volumeDecoupled : Bool := true

namespace SceneConfig

/-- The names of the settings in documents. -/
def names : List String :=
  ["shading_system", "shader_path", "user_shader_path", "oslc", "parallel_compile",
    "record_stack_trace", "rgb_to_y", "volume_decoupled"]

/-- The configuration that a document holds; settings that are left out keep their defaults. -/
def ofJson? (j : Json) : Option SceneConfig := do
  let r ← j.record? names 0
  let d : SceneConfig := {}
  return {
    system := ← r.getD? "shading_system" d.system (Json.enum? ShadingSystem.all ShadingSystem.name)
    shaderDirectory := ← r.option? "shader_path" Json.str?
    userDirectory := ← r.option? "user_shader_path" Json.str?
    compiler := ← r.getD? "oslc" d.compiler Json.str?
    parallel := ← r.getD? "parallel_compile" d.parallel Json.bool?
    recordTrace := ← r.getD? "record_stack_trace" d.recordTrace Json.bool?
    luminance := ← r.getD? "rgb_to_y" d.luminance Vec3.ofJson?
    volumeDecoupled := ← r.getD? "volume_decoupled" d.volumeDecoupled Json.bool? }

def toJson (c : SceneConfig) : Json :=
  .obj [("shading_system", .str c.system.name), ("shader_path", .ofOption .str c.shaderDirectory),
    ("user_shader_path", .ofOption .str c.userDirectory), ("oslc", .str c.compiler),
    ("parallel_compile", .bool c.parallel), ("record_stack_trace", .bool c.recordTrace),
    ("rgb_to_y", c.luminance.toJson), ("volume_decoupled", .bool c.volumeDecoupled)]

/-- Reads a configuration file, given what reading its text gave. -/
def ofFile (path : String) (content : Except ReadError String) : Except SceneError SceneConfig :=
  match content with
  | .error e => .error (.configUnreadable path e)
  | .ok text =>
    match (Json.parse? text).bind ofJson? with
    | some c => .ok c
    | none => .error (.configMalformed path)

/-- A truth value in a variable. -/
def switch? : String → Option Bool
  | "1" | "true" => some true
  | "0" | "false" => some false
  | _ => none

/-- The variable for compiling at the same time. -/
def parallelVariable : String := "SHADEGRAPH_PARALLEL_COMPILE"

/-- The configuration that the variables of an environment give. -/
def ofVariables (value? : String → Option String) : Except SceneError SceneConfig := do
  let d : SceneConfig := {}
  let system ←
    match value? "SHADEGRAPH_SHADING_SYSTEM" with
    | some value => ShadingSystem.ofName value
    | none => pure d.system
  let parallel ←
    match value? parallelVariable with
    | some value =>
      match switch? value with
      | some b => pure b
      | none => throw (.invalidSetting parallelVariable value)
    | none => pure d.parallel
  return { d with
    system
    parallel
    shaderDirectory := value? "SHADEGRAPH_SHADER_PATH"
    userDirectory := value? "SHADEGRAPH_USER_SHADER_PATH"
    compiler := (value? "SHADEGRAPH_OSLC").getD d.compiler }

/-- The registry for engines with this configuration, on a host with the given programs. -/
def registry (c : SceneConfig) (programs : ProgramTable) : EngineRegistry where
  settings := ⟨c.userDirectory, .program programs c.compiler⟩
  shaderDirectory := c.shaderDirectory

/-- The brightness of a color. -/
def gray (c : SceneConfig) (color : Vec3) : Float32 :=
  color.x * c.luminance.x + color.y * c.luminance.y + color.z * c.luminance.z

end SceneConfig

end Shading
