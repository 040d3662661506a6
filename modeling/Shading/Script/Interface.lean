import Shading.Node.Json
import Shading.Number.Decimal
import Shading.Text.Blank

/-!
# Interfaces of compiled scripts

A compiled script is text, one item to a line.  A line `<kind> <name>` declares the shader, and a
line that starts with `param` or `oparam` declares an input or an output of it: its fields stand
between tabs and are the keyword, the type, the name and the default.  The code starts at the first
line that starts with `code`, and nothing after that matters here.

`ScriptInterface.parse` reads the declaration and the parameters, and `ScriptInterface.toNode` makes
the node whose sockets are those parameters that a socket can stand for.
-/

namespace Shading

open Text

/-! ## Parameters -/

/-- The element type of a parameter. -/
inductive ScriptBase where
  | int | float | string | color | point | vector | normal | matrix
  deriving DecidableEq, Repr

namespace ScriptBase

def all : List ScriptBase := [int, float, string, color, point, vector, normal, matrix]

def name : ScriptBase → String
  | int => "int"
  | float => "float"
  | string => "string"
  | color => "color"
  | point => "point"
  | vector => "vector"
  | normal => "normal"
  | matrix => "matrix"

def label : ScriptBase → String
  | int => "Int"
  | float => "Float"
  | string => "String"
  | color => "Color"
  | point => "Point"
  | vector => "Vector"
  | normal => "Normal"
  | matrix => "Matrix"

def ofName? (name : String) : Option ScriptBase := all.find? fun b => b.name == name

/-- The type of a socket for the element type; matrices have none. -/
def socketType? : ScriptBase → Option SocketType
  | int => some .int
  | float => some .float
  | string => some .string
  | color => some .color
  | point => some .point
  | vector => some .vector
  | normal => some .normal
  | matrix => none

end ScriptBase

/-- The default of a parameter. -/
inductive ScriptDefault where
  | ints (v : List Int32)
  | floats (v : List Float32)
  | strings (v : List String)
  deriving DecidableEq

def ScriptDefault.toJson : ScriptDefault → Json
  | ints v => .obj [("Int", .arr (v.map fun i => .int i.toInt))]
  | floats v => .obj [("Float", .arr (v.map .float))]
  | strings v => .obj [("String", .arr (v.map .str))]

/-- A parameter of a script. -/
structure ScriptParam where
  name : String
  /-- The element type; structures have none. -/
  base : Option ScriptBase
  isOutput : Bool
  isClosure : Bool
  isStruct : Bool
  /-- Whether it is an array of any length. -/
  isOpenArray : Bool
  /-- The length of an array, and zero for anything else. -/
  length : Nat
  default : Option ScriptDefault
  deriving DecidableEq

namespace ScriptParam

/-- Whether a socket can stand for the parameter: it is no structure, and at most one element. -/
def isSupported (p : ScriptParam) : Bool := !p.isOpenArray && !p.isStruct && p.length ≤ 1

/-- The type of a socket for the parameter. -/
def socketType? (p : ScriptParam) : Option SocketType :=
  if p.isClosure then some .closure else p.base.bind ScriptBase.socketType?

/-- The default as the value of a socket of the given type, if it is one. -/
def defaultValue? (p : ScriptParam) (ty : SocketType) : Option SocketValue :=
  match p.default with
  | some (.floats v) =>
    if ty.isVec3 then
      match v with
      | x :: y :: z :: _ => some (.vec3 ⟨x, y, z⟩)
      | _ => none
    else if ty = .float then v.head?.map .float
    else none
  | some (.ints v) => if ty = .int then v.head?.map .int else none
  | some (.strings v) => if ty = .string then v.head?.map .string else none
  | none => none

/-- The value that a socket of the given type starts with. -/
def initialValue (p : ScriptParam) (ty : SocketType) : SocketValue :=
  (p.defaultValue? ty).getD (.zero ty)

/-- The parameter as a document, with the socket that can stand for it. -/
def toJson (p : ScriptParam) : Json :=
  .obj [("name", .str p.name), ("base", .ofOption (fun b => .str b.label) p.base),
    ("output", .bool p.isOutput), ("closure", .bool p.isClosure), ("struct", .bool p.isStruct),
    ("varlen", .bool p.isOpenArray), ("arraylen", .nat p.length),
    ("supported", .bool p.isSupported), ("socket", .ofOption SocketType.toJson p.socketType?),
    ("default", .ofOption ScriptDefault.toJson p.default)]

end ScriptParam

/-! ## Errors -/

/-- What is wrong with the text of a script. -/
inductive ScriptFault where
  | noDeclaration
  | unnamedShader
  /-- The bytes that are cut off for the keyword end inside a character, which ends the program
  instead of being reported. -/
  | splitCharacter
  | parameterBeforeDeclaration
  | incompleteParameter
  | unnamedParameter
  | badLength
  | unknownType (name : String)
  deriving DecidableEq, Repr

def ScriptFault.message : ScriptFault → String
  | noDeclaration => "no shader declaration"
  | unnamedShader => "shader has no name"
  | splitCharacter => "shader name starts inside a character"
  | parameterBeforeDeclaration => "parameter before shader declaration"
  | incompleteParameter => "parameter needs a type and a name"
  | unnamedParameter => "parameter has no name"
  | badLength => "bad array length"
  | unknownType name => "unknown type '" ++ name ++ "'"

/-- A fault at a line, counted from one; line zero stands for the whole text. -/
structure ScriptSyntaxError where
  line : Nat
  fault : ScriptFault
  deriving DecidableEq, Repr

/-! ## Reading parameters -/

/-- The type of a parameter. -/
structure ScriptType where
  base : Option ScriptBase
  isClosure : Bool
  isStruct : Bool
  isOpenArray : Bool
  length : Nat

/-- The text without closing brackets at its end. -/
def dropBrackets (s : List Char) : List Char := (s.reverse.dropWhile (· == ']')).reverse

/-- The length that an array's brackets hold; none for an array of any length. -/
def readLength (s : List Char) : Except ScriptFault (Option Nat) :=
  let digits := dropBrackets s
  if digits.isEmpty then .ok none
  else
    match Decimal.unsigned? digits with
    | some n => if n < UInt64.size then .ok (some n) else .error .badLength
    | none => .error .badLength

def ScriptType.read (s : List Char) : Except ScriptFault ScriptType := do
  let closure := after? "closure ".toList s
  let s := (closure.map trim).getD s
  let isStruct := "struct".toList.isPrefixOf s
  let (element, isOpenArray, length) ←
    match splitOnce '[' s with
    | none => pure (s, false, 0)
    | some (element, rest) =>
      match ← readLength rest with
      | none => pure (element, true, 0)
      | some n => pure (element, false, n)
  let base := ScriptBase.ofName? (String.ofList element)
  if base.isNone && !isStruct then throw (.unknownType (String.ofList element))
  return ⟨base, closure.isSome, isStruct, isOpenArray, length⟩

/-- The texts in quotes among the pieces between quotes; one that is not closed does not count. -/
def quotedPieces : List (List Char) → List String
  | _ :: w :: next :: rest => String.ofList w :: quotedPieces (next :: rest)
  | _ => []

def ScriptDefault.read? (base : ScriptBase) (s : List Char) : Option ScriptDefault :=
  match base with
  | .int =>
    ((words s).mapM fun w => do
      let n ← Decimal.integer? w
      if -2147483648 ≤ n && n < 2147483648 then some (Int32.ofInt n) else none).map .ints
  | .string => some (.strings (quotedPieces (pieces (· == '"') s)))
  | _ => ((words s).mapM Decimal.float32?).map .floats

/-- Reads the fields of a parameter.  A default that does not read is none; a field that starts with
a percent sign is no default but a hint. -/
def ScriptParam.read (isOutput : Bool) (line : List Char) : Except ScriptFault ScriptParam :=
  match (pieces (· == '\t') line).map trim with
  | _ :: typeText :: name :: rest => do
    if name.isEmpty then throw .unnamedParameter
    let t ← ScriptType.read typeText
    let default := do
      let text ← rest.head?
      let base ← t.base
      if text.isEmpty || text.head? == some '%' || t.isClosure then none
      else ScriptDefault.read? base text
    return ⟨String.ofList name, t.base, isOutput, t.isClosure, t.isStruct, t.isOpenArray, t.length,
      default⟩
  | _ => .error .incompleteParameter

/-! ## Reading interfaces -/

/-- What a compiled script says about itself. -/
structure ScriptInterface where
  kind : String
  name : String
  params : List ScriptParam
  deriving DecidableEq

/-- What a line of a compiled script is about. -/
inductive ScriptLine where
  | other
  /-- The declaration of a shader of this kind, and the rest of the line if it can be cut off. -/
  | declaration (kind : String) (rest : Option (List Char))
  | parameter (isOutput : Bool)
  | code

/-- The text after its first `n` bytes, unless they end inside a character. -/
def dropBytes? : Nat → List Char → Option (List Char)
  | 0, s => some s
  | _ + 1, [] => none
  | n + 1, c :: s => if c.utf8Size ≤ n + 1 then dropBytes? (n + 1 - c.utf8Size) s else none

/-- The words that declare a shader. -/
def ScriptLine.kinds : List String := ["shader", "surface", "displacement", "volume", "light"]

/-- What a line is about.  The name in a declaration is what is left after as many bytes as the
keyword has, so it is short of some letters of the keyword when the line starts with a blank. -/
def ScriptLine.ofText (line : List Char) : ScriptLine :=
  if line.isEmpty || line.head? == some '#' || "OpenShadingLanguage".toList.isPrefixOf line then
    .other
  else
    let keyword := String.ofList ((words line).headD [])
    if kinds.contains keyword then
      .declaration keyword (dropBytes? keyword.utf8ByteSize line)
    else if keyword = "param" then .parameter false
    else if keyword = "oparam" then .parameter true
    else if keyword = "code" then .code
    else .other

namespace ScriptInterface

/-- Reads lines, of which the first has the given number, after the declaration. -/
def readParams : Nat → List (List Char) → Except ScriptSyntaxError (List ScriptParam)
  | _, [] => .ok []
  | number, line :: rest =>
    match ScriptLine.ofText (trimEnd line) with
    | .code => .ok []
    | .parameter isOutput => do
      let p ← (ScriptParam.read isOutput (trimEnd line)).mapError (⟨number, ·⟩)
      return p :: (← readParams (number + 1) rest)
    | .declaration .. | .other => readParams (number + 1) rest

/-- Reads lines, of which the first has the given number, up to the declaration and after it. -/
def readLines : Nat → List (List Char) → Except ScriptSyntaxError ScriptInterface
  | _, [] => .error ⟨0, .noDeclaration⟩
  | number, line :: rest =>
    match ScriptLine.ofText (trimEnd line) with
    | .code => .error ⟨0, .noDeclaration⟩
    | .parameter _ => .error ⟨number, .parameterBeforeDeclaration⟩
    | .declaration _ none => .error ⟨number, .splitCharacter⟩
    | .declaration kind (some name) =>
      if (trim name).isEmpty then .error ⟨number, .unnamedShader⟩
      else return ⟨kind, String.ofList (trim name), ← readParams (number + 1) rest⟩
    | .other => readLines (number + 1) rest

def parse (text : String) : Except ScriptSyntaxError ScriptInterface := readLines 1 (lines text.toList)

/-- Whether reading the text ends the program. -/
def crashes (text : String) : Bool :=
  match parse text with
  | .error e => e.fault == .splitCharacter
  | .ok _ => false

def param? (i : ScriptInterface) (name : String) : Option ScriptParam :=
  i.params.find? fun p => p.name == name

/-- The parameters that sockets can stand for, with the types of the sockets. -/
def sockets (i : ScriptInterface) : List (ScriptParam × SocketType) :=
  i.params.filterMap fun p => if p.isSupported then p.socketType?.map (p, ·) else none

/-- The node whose sockets are the parameters of the script. -/
def toNode (i : ScriptInterface) (source : ScriptSource) : Node where
  kind := .script source
  inputs := (i.sockets.filter fun (p, _) => !p.isOutput).map fun (p, ty) =>
    { name := p.name, ty, value := p.initialValue ty }
  outputs := (i.sockets.filter fun (p, _) => p.isOutput).map fun (p, ty) => ⟨p.name, ty⟩

end ScriptInterface

end Shading
