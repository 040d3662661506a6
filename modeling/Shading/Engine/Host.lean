import Shading.Engine.Recorder
import Shading.Script.Cache

/-!
# The shared engine

All renders share one engine, with the scripts that were loaded into it and the textures that it
looks up while it shades.  `EngineHost` puts it beside the files, which it reads scripts from and
which outlive it.

Loading a script changes the host even when it fails, so loading runs in a state monad with errors
whose state survives a failure: a failed key is remembered, and a compiled file stays.
-/

namespace Shading

/-! ## Textures -/

/-- What a texture name stands for. -/
inductive TextureHandle where
  /-- An image in a slot. -/
  | image (slot : UInt32)
  | ambientOcclusion
  | bevel
  deriving DecidableEq, Repr

/-- The textures that the engine can look up. -/
structure Textures where
  /-- The slots of the images, in the order of their registration, which numbers their names. -/
  slots : Array UInt32 := #[]
  /-- Whether the two textures that are no images are there. -/
  builtins : Bool := false
  deriving DecidableEq

namespace Textures

/-- The name of the image that was registered as number `n`. -/
def imageName (n : Nat) : String := "@svm" ++ toString n

/-- Registers an image under a name that was never used before. -/
def register (t : Textures) (slot : UInt32) : String × Textures :=
  (imageName t.slots.size, { t with slots := t.slots.push slot })

/-- The textures with the two that are no images. -/
def addBuiltins (t : Textures) : Textures := { t with builtins := true }

def get? (t : Textures) (name : String) : Option TextureHandle :=
  if name = "@ao" then if t.builtins then some .ambientOcclusion else none
  else if name = "@bevel" then if t.builtins then some .bevel else none
  else
    (t.slots.toList.zipIdx.find? fun (_, n) => imageName n == name).map fun (slot, _) =>
      .image slot

def size (t : Textures) : Nat := t.slots.size + if t.builtins then 2 else 0

end Textures

/-! ## Engines -/

/-- Where scripts come from. -/
structure ScriptSettings where
  /-- The directory in which bare names are looked up. -/
  userDirectory : Option String := none
  compiler : SourceCompiler := .unavailable

/-- An engine with its scripts and textures. -/
structure SharedEngine where
  settings : ScriptSettings
  recorder : Recorder := {}
  cache : ScriptCache := {}
  textures : Textures := {}

/-- The names of the kinds of rays, in the order of their bits. -/
def rayTypes : List String :=
  ["camera", "reflection", "refraction", "diffuse", "glossy", "singular", "transparent",
    "volume_scatter", "shadow", "shadow", "__unused__", "__unused__", "diffuse_ancestor"]

/-- The options that every engine is given first. -/
def engineOptions (shaderDirectory : Option String) : List (String × Param) :=
  [("lockgeom", .int 1), ("commonspace", .string "world"), ("greedyjit", .int 1)] ++
    (shaderDirectory.map fun d => ("searchpath:shader", Param.string d)).toList ++
    [("raytypes", ⟨ParamType.string.array rayTypes.length, .strings rayTypes⟩)]

/-- A new engine with its options set; its calls are added to a record. -/
def SharedEngine.new (settings : ScriptSettings) (shaderDirectory : Option String)
    (calls : Array EngineCall) : SharedEngine where
  settings
  recorder := (engineOptions shaderDirectory).foldl (fun e (name, value) => e.setAttribute name value)
    { calls }

/-- An engine and the files that it can see. -/
structure EngineHost extends SharedEngine where
  files : FileStore

namespace EngineHost

/-! ## Loading scripts -/

def fail {α : Type} (key : String) (error : ScriptError) : EStateM ScriptError EngineHost α := do
  modify fun h => { h with cache := h.cache.insert key none }
  throw error

/-- Whether a script was loaded under the key; an error if the key failed. -/
def known (key : String) : EStateM ScriptError EngineHost Bool := do
  match (← get).cache.get? key with
  | some (some _) => return true
  | some none => throw (.failedEarlier key)
  | none => return false

/-- Loads the text of a compiled script under a key, unless that was done before. -/
def loadText (key text : String) : EStateM ScriptError EngineHost String := do
  if !(← known key) then
    modify fun h => { h with
      recorder := h.recorder.load key
      cache := h.cache.insert key (some (.ofText text)) }
  return key

/-- Loads a compiled file that was modified at the given time. -/
def loadCompiled (path : String) (modified : UInt64) : EStateM ScriptError EngineHost String := do
  let key := scriptKey path modified
  if ← known key then return key
  else
    match (← get).files.read path with
    | .ok text => loadText key text
    | .error error => fail key (.unreadable path error)

/-- Compiles a source, unless that failed before. -/
def compileSource (path compiled : String) : EStateM ScriptError EngineHost Unit := do
  let h ← get
  let key := scriptKey path (h.files.modified path)
  let _ ← known key
  match h.settings.compiler.run path compiled h.files with
  | .ok files => set { h with files }
  | .error report => fail key (.notCompiled path report)

/-- Loads a source by way of the compiled file beside it, which is made if it is missing or older
than the source. -/
def loadSource (path : String) : EStateM ScriptError EngineHost String := do
  let compiled := String.ofList (Path.withExtension path.toList "oso".toList)
  let files := (← get).files
  let modified := files.modified compiled
  if modified != 0 then
    let key := scriptKey compiled modified
    if ← known key then return key
  if modified == 0 || modified < files.modified path then
    compileSource path compiled
    loadCompiled compiled ((← get).files.modified compiled)
  else loadCompiled compiled modified

def loadBare (name : String) : EStateM ScriptError EngineHost String := do
  match (← get).settings.userDirectory with
  | none => throw (.noSearchPath name)
  | some directory =>
    let path := String.ofList (Path.join directory.toList (name ++ ".oso").toList)
    loadCompiled path ((← get).files.modified path)

/-- Loads a source, a compiled file or a bare name; returns the key, which is the script's name in
the engine. -/
def loadFile (path : String) : EStateM ScriptError EngineHost String := do
  match (Path.extension? path.toList).map String.ofList with
  | some "osl" => loadSource path
  | some "oso" => loadCompiled path ((← get).files.modified path)
  | some _ => throw (.unknownFile path)
  | none => if Path.isBare path.toList then loadBare path else throw (.unknownFile path)

/-- The key under which a script is known to the engine, loading it if it is a file. -/
def loadSourceOf : ScriptSource → EStateM ScriptError EngineHost String
  | .file path => loadFile path
  | .bytecode hash => do
    if (← get).cache.isLoaded hash then return hash else throw (.notLoaded hash)

/-! ## Script nodes -/

/-- Where the script of a new node comes from. -/
inductive ScriptInput where
  | file (path : String)
  | text (key text : String)

/-- Loads a script and makes a node whose sockets are its parameters. -/
def scriptNode (input : ScriptInput) : EStateM ScriptError EngineHost Node := do
  let (key, source) ←
    match input with
    | .file path => pure (← loadFile path, ScriptSource.file path)
    | .text key text => pure (← loadText key text, ScriptSource.bytecode key)
  match ((← get).cache.loaded? key).bind (·.interface) with
  | some interface => return interface.toNode source
  | none => throw (.noInterface key)

end EngineHost

end Shading
