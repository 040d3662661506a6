import Shading.Hash.Blake3
import Shading.Script.Compiler
import Shading.Script.Interface

/-!
# Loaded scripts

Scripts are loaded under a key.  For a file the key is a hash of its path and its time of
modification: an edited file is loaded again under another key, an unchanged one is found.

The cache also remembers the keys that failed, and those are not tried again.
-/

namespace Shading

/-- The key of a file with a path and a time of modification. -/
def scriptKey (path : String) (modified : UInt64) : String :=
  let m := modified.toNat
  Blake3.hexHash (path.toUTF8.toList ++ Blake3.wordBytes (UInt32.ofNat (m % UInt32.size)) ++
    Blake3.wordBytes (UInt32.ofNat (m / UInt32.size)))

/-- What is known about a script that was loaded. -/
structure LoadedScript where
  /-- The interface, if the text has a readable one. -/
  interface : Option ScriptInterface
  hasEmission : Bool
  hasTransparent : Bool
  hasSubsurface : Bool
  /-- The text ends the program when its interface is read, and is never seen as loaded. -/
  crashes : Bool
  deriving DecidableEq

/-- What the text of a script says about it.  The closures that it uses show by their quoted
names.  A text without a readable interface is loaded all the same, except that a declaration which
is cut inside a character ends the program. -/
def LoadedScript.ofText (text : String) : LoadedScript where
  interface := (ScriptInterface.parse text).toOption
  crashes := ScriptInterface.crashes text
  hasEmission := Text.occursIn "\"emission\"".toList text.toList
  hasTransparent := Text.occursIn "\"transparent\"".toList text.toList
  hasSubsurface := Text.occursIn "\"bssrdf\"".toList text.toList

/-- The keys that were tried, each with the script or with nothing if it failed. -/
structure ScriptCache where
  entries : List (String × Option LoadedScript) := []

namespace ScriptCache

/-- What is known about a key: nothing, that it failed, or the script. -/
def get? (c : ScriptCache) (key : String) : Option (Option LoadedScript) := c.entries.lookup key

def loaded? (c : ScriptCache) (key : String) : Option LoadedScript := (c.get? key).join

def isLoaded (c : ScriptCache) (key : String) : Bool := (c.loaded? key).isSome

/-- Whether loading one of the scripts ended the program. -/
def crashes (c : ScriptCache) : Bool := c.entries.any fun e => e.2.any (·.crashes)

/-- The number of keys, failed ones among them. -/
def size (c : ScriptCache) : Nat := c.entries.length

/-- The cache with an entry for a key, in place of one that was there. -/
def insert (c : ScriptCache) (key : String) (entry : Option LoadedScript) : ScriptCache :=
  ⟨(key, entry) :: c.entries.filter fun e => e.1 != key⟩

end ScriptCache

/-- Why a script cannot be loaded or used. -/
inductive ScriptError where
  /-- The path is neither that of a source, nor that of a compiled file, nor a bare name. -/
  | unknownFile (path : String)
  /-- A bare name is looked up in the user's directory, and there is none. -/
  | noSearchPath (name : String)
  | unreadable (path : String) (error : ReadError)
  | notCompiled (path : String) (report : String)
  | failedEarlier (key : String)
  | notLoaded (key : String)
  /-- The script was loaded, but its text declares no readable interface. -/
  | noInterface (key : String)
  deriving DecidableEq, Repr

/-- The text of an error in the text of a script. -/
def ScriptSyntaxError.message (e : ScriptSyntaxError) : String :=
  "malformed shader bytecode at line " ++ toString e.line ++ ": " ++ e.fault.message

def ScriptError.message : ScriptError → String
  | unknownFile path => "unknown shader file type: " ++ path
  | noSearchPath name => "no user shader path configured to resolve '" ++ name ++ "'"
  | unreadable path error => "failed to read shader " ++ path ++ ": " ++ error.message
  | notCompiled path report => "failed to compile shader source " ++ path ++ ": " ++ report
  | failedEarlier key => "shader " ++ key ++ " failed to load earlier in this session"
  | notLoaded key => "no shader bytecode registered under " ++ key
  | noInterface key =>
    "malformed shader bytecode at line 0: shader " ++ key ++ " has no parameters"

end Shading
