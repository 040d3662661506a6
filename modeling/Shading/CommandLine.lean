import Shading.Json.Printer
import Shading.Scene.Report
import Shading.Shader.Json

/-!
# The command line

Two commands: one compiles a list of shaders the way a render does and prints what the update did,
the other prints the default shaders as such a list.

A run is a function of the arguments, the variables of the environment and the files: it gives an
exit code and what is written to the two outputs.  Exit codes are 0 for success, 1 when an entry
point failed, 2 when the arguments or the configuration are wrong and 3 when the input is.
-/

namespace Shading.CommandLine

/-! ## Arguments -/

/-- What the compile command is asked to do. -/
structure CompileOptions where
  input : Option String := none
  config : Option String := none
  /-- Print reports instead of a document. -/
  report : Bool := false
  /-- Print also what the device was handed. -/
  device : Bool := false
  deriving DecidableEq, Repr

/-- A command. -/
inductive Command where
  | compile (input : String) (options : CompileOptions)
  | defaults
  deriving DecidableEq, Repr

/-- What help can be asked about. -/
inductive HelpTopic where
  | program | compile | defaults | help
  deriving DecidableEq, Repr

def HelpTopic.ofCommand? : String → Option HelpTopic
  | "compile" => some .compile
  | "defaults" => some .defaults
  | "help" => some .help
  | _ => none

/-- Why no command is run. -/
inductive Refusal where
  /-- Help was asked for. -/
  | help (topic : HelpTopic)
  | noCommand
  | unknown (argument : String)
  | repeated (name : String)
  | noValue (name : String)
  deriving DecidableEq, Repr

/-- An option that takes a value. -/
inductive ValueOption where
  | input | config
  deriving DecidableEq, Repr

namespace ValueOption

def all : List ValueOption := [input, config]

def longName : ValueOption → String
  | input => "--input"
  | config => "--config"

def shortName : ValueOption → String
  | input => "-i"
  | config => "-c"

/-- Stores the value of an option, which may be given once and may not be empty. -/
def store (o : ValueOption) (value : String) (options : CompileOptions) :
    Except Refusal CompileOptions :=
  match o with
  | input =>
    if options.input.isSome then .error (.repeated o.longName)
    else if value.isEmpty then .error (.noValue o.longName)
    else .ok { options with input := some value }
  | config =>
    if options.config.isSome then .error (.repeated o.longName)
    else if value.isEmpty then .error (.noValue o.longName)
    else .ok { options with config := some value }

end ValueOption

/-- The option that an argument names by itself. -/
def detached? (argument : String) : Option ValueOption :=
  ValueOption.all.find? fun o => argument == o.longName || argument == o.shortName

/-- The option that an argument names together with a value: after an equals sign, or right after
the short name. -/
def attached? (argument : String) : Option (ValueOption × String) :=
  ValueOption.all.findSome? fun o =>
    let cut := fun (start : String) => Text.after? start.toList argument.toList
    let value := (cut (o.longName ++ "=")).or ((cut (o.shortName ++ "=")).or (cut o.shortName))
    value.map fun v => (o, String.ofList v)

/-- Whether an argument cannot be a value: it starts with a dash and is more than one. -/
def looksLikeOption (argument : String) : Bool :=
  argument.toList.head? == some '-' && argument != "-"

def asksForHelp (argument : String) : Bool :=
  argument == "--help" || (Text.after? ['-', 'h'] argument.toList).isSome

/-- Reads the arguments of the compile command. -/
def readOptions : List String → CompileOptions → Except Refusal CompileOptions
  | [], options => .ok options
  | argument :: rest, options =>
    if argument = "--" then
      match rest with
      | [] => .ok options
      | extra :: _ => .error (.unknown extra)
    else if argument = "--report" then
      if options.report then .error (.repeated argument)
      else readOptions rest { options with report := true }
    else if argument = "--device" then
      if options.device then .error (.repeated argument)
      else readOptions rest { options with device := true }
    else if asksForHelp argument then .error (.help .compile)
    else
      match detached? argument, rest with
      | some o, value :: rest =>
        if looksLikeOption value then .error (.noValue o.longName)
        else do readOptions rest (← o.store value options)
      | some o, [] => .error (.noValue o.longName)
      | none, rest =>
        match attached? argument with
        | some (o, value) => do readOptions rest (← o.store value options)
        | none => .error (.unknown argument)

/-- Reads the arguments of the help command, which never runs anything.  No command has commands
below it, so at most one is named. -/
def readTopic : List String → Refusal
  | [] => .help .program
  | command :: rest =>
    match HelpTopic.ofCommand? command, rest with
    | some topic, [] => .help topic
    | some _, extra :: _ => .unknown extra
    | none, _ => .unknown command

def parse : List String → Except Refusal Command
  | [] => .error .noCommand
  | "compile" :: rest => do
    let options ← readOptions rest {}
    match options.input with
    | some input => return .compile input options
    | none => throw (.noValue ValueOption.input.longName)
  | "defaults" :: rest =>
    match rest with
    | [] | ["--"] => .ok .defaults
    | argument :: _ =>
      .error (if asksForHelp argument then .help .defaults else .unknown argument)
  | "help" :: rest => .error (readTopic rest)
  | argument :: _ => .error (if asksForHelp argument then .help .program else .unknown argument)

/-! ## Runs -/

/-- How a run ends. -/
structure Outcome where
  code : UInt32
  output : String := ""
  errors : String := ""
  deriving DecidableEq, Repr

/-- What a run can ask its host. -/
structure Host where
  value? : String → Option String
  read : String → Except ReadError String

/-- The help on a topic. -/
def HelpTopic.text : HelpTopic → String
  | program =>
    "Shader graph compiler and tools\n\n" ++
    "Usage: shadegraph <COMMAND>\n\n" ++
    "Commands:\n" ++
    "  compile   Compile shaders to bytecode\n" ++
    "  defaults  Print the default shaders as compile input\n" ++
    "  help      Print this message or the help of the given subcommand(s)\n\n" ++
    "Options:\n" ++
    "  -h, --help  Print help\n"
  | compile =>
    "Compile shaders to bytecode\n\n" ++
    "Usage: shadegraph compile [OPTIONS] --input <INPUT>\n\n" ++
    "Options:\n" ++
    "  -i, --input <INPUT>    JSON file holding an array of shaders\n" ++
    "  -c, --config <CONFIG>  JSON manager config (default: read from the environment)\n" ++
    "      --report           Print each shader's compile report instead of JSON\n" ++
    "      --device           Also print the uploaded instruction count\n" ++
    "  -h, --help             Print help\n"
  | defaults =>
    "Print the default shaders as compile input\n\n" ++
    "Usage: shadegraph defaults\n\n" ++
    "Options:\n" ++
    "  -h, --help  Print help\n"
  | help =>
    "Print this message or the help of the given subcommand(s)\n\n" ++
    "Usage: shadegraph help [COMMAND]...\n\n" ++
    "Arguments:\n" ++
    "  [COMMAND]...  Print help for the subcommand(s)\n"

def refuse : Refusal → Outcome
  | .help topic => { code := 0, output := topic.text }
  | .noCommand => { code := 2, errors := HelpTopic.program.text }
  | .unknown argument =>
    { code := 2, errors := "error: unexpected argument '" ++ argument ++ "' found\n" }
  | .repeated name =>
    { code := 2, errors := "error: the argument '" ++ name ++ "' cannot be used multiple times\n" }
  | .noValue name =>
    { code := 2, errors := "error: a value is required for '" ++ name ++ "' but none was supplied\n" }

def stop (code : UInt32) (message : String) : Outcome :=
  { code, errors := "Error: " ++ message ++ "\n" }

/-- Reads the list of shaders. -/
def readShaders (host : Host) (path : String) : Except String (List Shader) :=
  match host.read path with
  | .error e => .error ("failed to read '" ++ path ++ "': " ++ e.message)
  | .ok text =>
    match Json.parse? text with
    | some (.arr items) =>
      match items.mapM Shader.ofJson with
      | .ok shaders => .ok shaders
      | .error _ => .error ("invalid shader list '" ++ path ++ "'")
    | _ => .error ("invalid shader list '" ++ path ++ "'")

def readConfig (host : Host) (options : CompileOptions) : Except SceneError SceneConfig :=
  match options.config with
  | some path => SceneConfig.ofFile path (host.read path)
  | none => SceneConfig.ofVariables host.value?

/-- What the compile command prints about an update. -/
def showUpdate (scene : Scene) (update : Scene.HostUpdate) (report : Bool) : String :=
  if report then
    String.join (update.summaries.map fun (id, summary) =>
      let name := ((scene.shader? id).map (·.name)).getD ""
      "Shader " ++ toString id ++ " (" ++ name ++ "):\n" ++ summary.report ++ "\n")
  else update.toJson.pretty ++ "\n"

/-- What the compile command prints about the device. -/
def showDevice (scene : Scene) : String :=
  let device := (scene.deviceUpdate {}).2.2
  "Uploaded " ++ toString device.shaders.length ++ " shaders, " ++
    toString device.instructions.size ++ " instructions\n"

def showFailure (f : Scene.ShaderFailure) : String :=
  "  - shader " ++ toString f.shader ++ " " ++ f.entry.name ++ ": " ++ f.message ++ "\n"

/-- Compiles shaders in a new scene. -/
def compileShaders (config : SceneConfig) (shaders : List Shader) (options : CompileOptions) :
    Outcome :=
  match Scene.new config none with
  | .error e => stop 2 e.message
  | .ok scene =>
    let scene := shaders.foldl (fun s shader => (s.add shader).2) scene
    let (update, scene, _) := scene.hostUpdate {} fun _ => false
    { code := if update.failures.isEmpty then 0 else 1
      output := showUpdate scene update options.report ++
        if options.device then showDevice scene else ""
      errors := String.join (update.failures.map showFailure) }

def runCompile (host : Host) (input : String) (options : CompileOptions) : Outcome :=
  match readConfig host options with
  | .error e => stop 2 e.message
  | .ok config =>
    if config.system ≠ .bytecode then
      stop 2 "the CLI compiles bytecode only; set the shading system to 'svm'"
    else
      match readShaders host input with
      | .error message => stop 3 message
      | .ok shaders => compileShaders config shaders options

def run (host : Host) (arguments : List String) : Outcome :=
  match parse arguments with
  | .error r => refuse r
  | .ok (.compile input options) => runCompile host input options
  | .ok .defaults =>
    { code := 0, output := (Json.arr (Shader.defaults.map Shader.toJson)).pretty ++ "\n" }

/-- The files that a run reads. -/
def paths (arguments : List String) : List String :=
  match parse arguments with
  | .ok (.compile input options) => input :: options.config.toList
  | _ => []

/-- The variables that a run reads. -/
def variableNames : List String :=
  ["SHADEGRAPH_SHADING_SYSTEM", "SHADEGRAPH_SHADER_PATH", "SHADEGRAPH_USER_SHADER_PATH",
    "SHADEGRAPH_OSLC", "SHADEGRAPH_PARALLEL_COMPILE"]

end Shading.CommandLine
