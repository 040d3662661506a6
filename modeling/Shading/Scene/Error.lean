import Shading.Graph.Basic
import Shading.Script.Cache
import Shading.Shader.Basic

/-!
# Why an operation on a scene fails
-/

namespace Shading

/-- Why an operation on a scene, or reading its configuration, fails. -/
inductive SceneError where
  | unknownSystem (value : String)
  | invalidSetting (name value : String)
  | configUnreadable (path : String) (error : ReadError)
  | configMalformed (path : String)
  /-- Groups can only be built in an engine, and there is none. -/
  | noEngine
  /-- Scripts only run in the external engine. -/
  | scriptsNeedEngine
  | shaderNotFound (id : ShaderId)
  | script (error : ScriptError)
  deriving DecidableEq, Repr

def SceneError.message : SceneError → String
  | unknownSystem value =>
    "unknown shading system '" ++ value ++ "', expected 'svm' or 'osl'"
  | invalidSetting name value => "invalid value '" ++ value ++ "' for " ++ name
  | configUnreadable path error => "failed to read config " ++ path ++ ": " ++ error.message
  | configMalformed path => "invalid config " ++ path
  | noEngine => "the OSL shading system needs a shared engine registry"
  | scriptsNeedEngine => "script nodes need the OSL shading system"
  | shaderNotFound id => "shader " ++ toString id ++ " not found"
  | script error => error.message

end Shading
