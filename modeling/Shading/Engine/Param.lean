import Shading.Attribute
import Shading.Socket.Json

/-!
# Parameters of the external engine

The external engine takes typed parameters: integers, numbers or strings, one or several to an
element, and one or several elements.  `SocketValue.toParam` says which parameter stands for the
value of a socket.

The engine has no truth values, so they travel as the integers 0 and 1.  A transform travels as its
transposed matrix of sixteen numbers.  The elements of lists are packed without padding, and a
parameter is *consistent* when it holds exactly as many values as its type says.
-/

namespace Shading

/-! ## Types -/

/-- What a parameter is made of. -/
inductive ParamBase where
  | int | float | string
  deriving DecidableEq, Repr

namespace ParamBase

def all : List ParamBase := [int, float, string]

def label : ParamBase → String
  | int => "Int"
  | float => "Float"
  | string => "String"

def ofJson? (j : Json) : Option ParamBase := j.enum? all label

end ParamBase

/-- How the values of one element are arranged. -/
inductive Aggregate where
  | scalar | vec2 | vec3 | matrix44
  deriving DecidableEq, Repr

namespace Aggregate

def all : List Aggregate := [scalar, vec2, vec3, matrix44]

def label : Aggregate → String
  | scalar => "Scalar"
  | vec2 => "Vec2"
  | vec3 => "Vec3"
  | matrix44 => "Matrix44"

/-- The number of values in one element. -/
def components : Aggregate → Nat
  | scalar => 1
  | vec2 => 2
  | vec3 => 3
  | matrix44 => 16

def ofJson? (j : Json) : Option Aggregate := j.enum? all label

end Aggregate

/-- How a vector moves from one space to another. -/
inductive VecSemantics where
  | none | color | point | vector | normal
  deriving DecidableEq, Repr

namespace VecSemantics

def all : List VecSemantics := [none, color, point, vector, normal]

def label : VecSemantics → String
  | none => "None"
  | color => "Color"
  | point => "Point"
  | vector => "Vector"
  | normal => "Normal"

def ofJson? (j : Json) : Option VecSemantics := j.enum? all label

end VecSemantics

/-- The type of a parameter; the length is zero unless it is an array. -/
structure ParamType where
  base : ParamBase
  aggregate : Aggregate := .scalar
  semantics : VecSemantics := .none
  length : Nat := 0
  deriving DecidableEq, Repr

namespace ParamType

def int : ParamType := { base := .int }
def float : ParamType := { base := .float }
def string : ParamType := { base := .string }
def color : ParamType := { base := .float, aggregate := .vec3, semantics := .color }
def point : ParamType := { base := .float, aggregate := .vec3, semantics := .point }
def vector : ParamType := { base := .float, aggregate := .vec3, semantics := .vector }
def normal : ParamType := { base := .float, aggregate := .vec3, semantics := .normal }
def point2 : ParamType := { base := .float, aggregate := .vec2, semantics := .point }
def matrix : ParamType := { base := .float, aggregate := .matrix44 }

def array (t : ParamType) (n : Nat) : ParamType := { t with length := n }

def isArray (t : ParamType) : Bool := 0 < t.length

/-- The number of values that a parameter of the type holds. -/
def valueCount (t : ParamType) : Nat := t.aggregate.components * max t.length 1

/-- The name of the element type.  The arrangement matters to numbers only, the meaning to vectors
of three only. -/
def elementName (t : ParamType) : String :=
  match t.base with
  | .int => "int"
  | .string => "string"
  | .float =>
    match t.aggregate with
    | .scalar => "float"
    | .matrix44 => "matrix"
    | .vec2 => "point2"
    | .vec3 =>
      match t.semantics with
      | .color => "color"
      | .point => "point"
      | .normal => "normal"
      | .vector | .none => "vector"

def name (t : ParamType) : String :=
  if t.isArray then t.elementName ++ "[" ++ toString t.length ++ "]" else t.elementName

def toJson (t : ParamType) : Json :=
  .obj [("base", .str t.base.label), ("aggregate", .str t.aggregate.label),
    ("semantics", .str t.semantics.label), ("arraylen", .nat t.length)]

def ofJson? (j : Json) : Option ParamType := do
  let r ← j.fields? ["base", "aggregate", "semantics", "arraylen"]
  return ⟨← r.get? "base" ParamBase.ofJson?, ← r.get? "aggregate" Aggregate.ofJson?,
    ← r.get? "semantics" VecSemantics.ofJson?, ← r.get? "arraylen" Json.index64?⟩

end ParamType

/-! ## Values -/

/-- The values of a parameter, without regard to its type. -/
inductive ParamData where
  | ints (v : List Int32)
  | floats (v : List Float32)
  | strings (v : List String)
  deriving DecidableEq

namespace ParamData

def length : ParamData → Nat
  | ints v => v.length
  | floats v => v.length
  | strings v => v.length

/-- What the values are. -/
def base : ParamData → ParamBase
  | ints _ => .int
  | floats _ => .float
  | strings _ => .string

def toJson : ParamData → Json
  | ints v => .arr (v.map fun i => .int i.toInt)
  | floats v => .arr (v.map .float)
  | strings v => .arr (v.map .str)

def ofJson? (j : Json) : Option ParamData := do
  match ← j.variant? with
  | ("Int", some payload) => (payload.list? Json.int32?).map ints
  | ("Float", some payload) => (payload.list? Json.float32?).map floats
  | ("String", some payload) => (payload.list? Json.str?).map strings
  | _ => none

end ParamData

/-- A parameter: values and the type that they are declared to have. -/
structure Param where
  ty : ParamType
  data : ParamData
  deriving DecidableEq

namespace Param

/-- Whether the values are those that the type asks for. -/
def isConsistent (p : Param) : Bool := p.data.base == p.ty.base && p.data.length == p.ty.valueCount

def int (v : Int32) : Param := ⟨.int, .ints [v]⟩

/-- A truth value, as an integer. -/
def bool (b : Bool) : Param := int b.toInt.toInt32

def float (v : Float32) : Param := ⟨.float, .floats [v]⟩

def string (s : String) : Param := ⟨.string, .strings [s]⟩

/-- A vector of the given type. -/
def vec3 (ty : ParamType) (v : Vec3) : Param := ⟨ty, .floats v.toList⟩

/-- A list of vectors of the given type. -/
def vec3s (ty : ParamType) (v : List Vec3) : Param :=
  ⟨ty.array v.length, .floats (v.flatMap Vec3.toList)⟩

/-- A transform, as a matrix. -/
def matrix (t : Transform) : Param := ⟨.matrix, .floats t.transposedProjection⟩

/-- The name of an attribute as shaders look it up: standard ones are in the space `geom`. -/
def attributeName (name : String) : Param :=
  string (if (StandardAttribute.ofName? name).isSome then "geom:" ++ name else name)

/-- The parameter as a document, with the name of its type. -/
def toJson (p : Param) : Json := .obj [("type", .str p.ty.name), ("data", p.data.toJson)]

def ofJson? (j : Json) : Option Param := do
  let r ← j.fields? ["ty", "data"]
  return ⟨← r.get? "ty" ParamType.ofJson?, ← r.get? "data" ParamData.ofJson?⟩

end Param

/-! ## Sockets -/

/-- Why the value of a socket has no parameter. -/
inductive ParamError where
  /-- The engine has no parameters of the type. -/
  | unsupported (name : String) (ty : SocketType)
  /-- The value is not one of the type. -/
  | mismatch (name : String) (ty : SocketType)
  deriving DecidableEq, Repr

def ParamError.message : ParamError → String
  | unsupported name ty =>
    "socket '" ++ name ++ "' of type " ++ ty.name ++ " has no engine parameter form"
  | mismatch name ty => "value of socket '" ++ name ++ "' does not match its type " ++ ty.name

/-- The parameter for the value of a socket, which is named in errors. -/
def SocketValue.toParam (name : String) (ty : SocketType) (value : SocketValue) :
    Except ParamError Param :=
  match ty, value with
  | .closure, _ | .uint, _ => .error (.unsupported name ty)
  | .boolean, .bool b => .ok (.bool b)
  | .float, .float v => .ok (.float v)
  | .int, .int v => .ok (.int v)
  | .color, .vec3 v => .ok (.vec3 .color v)
  | .point, .vec3 v => .ok (.vec3 .point v)
  | .vector, .vec3 v => .ok (.vec3 .vector v)
  | .normal, .vec3 v => .ok (.vec3 .normal v)
  | .point2, .vec2 v => .ok ⟨.point2, .floats v.toList⟩
  | .string, .string s | .enum, .string s => .ok (.string s)
  | .transform, .transform t => .ok (.matrix t)
  | .booleanArray, .bools v =>
    .ok ⟨ParamType.int.array v.length, .ints (v.map fun b => b.toInt.toInt32)⟩
  | .floatArray, .floats v => .ok ⟨ParamType.float.array v.length, .floats v⟩
  | .intArray, .ints v => .ok ⟨ParamType.int.array v.length, .ints v⟩
  | .colorArray, .vec3s v => .ok (.vec3s .color v)
  | .pointArray, .vec3s v => .ok (.vec3s .point v)
  | .vectorArray, .vec3s v => .ok (.vec3s .vector v)
  | .normalArray, .vec3s v => .ok (.vec3s .normal v)
  | .point2Array, .vec2s v =>
    .ok ⟨ParamType.point2.array v.length, .floats (v.flatMap Vec2.toList)⟩
  | .stringArray, .strings v => .ok ⟨ParamType.string.array v.length, .strings v⟩
  | .transformArray, .transforms v =>
    .ok ⟨ParamType.matrix.array v.length, .floats (v.flatMap Transform.transposedProjection)⟩
  | _, _ => .error (.mismatch name ty)

end Shading
