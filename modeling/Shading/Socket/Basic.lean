import Shading.Vec

/-!
# Sockets

The types that a node's sockets can have, the values that an unlinked input holds, and the rule
for what may be linked to what.

A socket type either lives on the evaluation stack, where it takes a number of slots, or it does
not.  Closures live there in name only and take none.  Two different stack types may be linked
when they take the same positive number of slots; every other link needs equal types.
-/

namespace Shading

/-- The type of a socket. -/
inductive SocketType where
  | boolean | float | int | uint | color | vector | point | normal | point2 | closure | string
  | enum | transform | booleanArray | floatArray | intArray | colorArray | vectorArray | pointArray
  | normalArray | point2Array | stringArray | transformArray
  deriving DecidableEq, Repr

namespace SocketType

/-- All types, in the order in which they are declared. -/
def all : List SocketType :=
  [boolean, float, int, uint, color, vector, point, normal, point2, closure, string, enum,
    transform, booleanArray, floatArray, intArray, colorArray, vectorArray, pointArray,
    normalArray, point2Array, stringArray, transformArray]

/-- The name of a type in documents and messages. -/
def name : SocketType → String
  | boolean => "Boolean"
  | float => "Float"
  | int => "Int"
  | uint => "UInt"
  | color => "Color"
  | vector => "Vector"
  | point => "Point"
  | normal => "Normal"
  | point2 => "Point2"
  | closure => "Closure"
  | string => "String"
  | enum => "Enum"
  | transform => "Transform"
  | booleanArray => "BooleanArray"
  | floatArray => "FloatArray"
  | intArray => "IntArray"
  | colorArray => "ColorArray"
  | vectorArray => "VectorArray"
  | pointArray => "PointArray"
  | normalArray => "NormalArray"
  | point2Array => "Point2Array"
  | stringArray => "StringArray"
  | transformArray => "TransformArray"

/-- The number of stack slots that a value takes, or `none` for a type that is never on the
stack. -/
def stackSize? : SocketType → Option Nat
  | float | int => some 1
  | color | vector | point | normal => some 3
  | closure => some 0
  | _ => none

/-- Whether values are vectors of three components. -/
def isVec3 : SocketType → Bool
  | color | vector | point | normal => true
  | _ => false

def isArray : SocketType → Bool
  | booleanArray | floatArray | intArray | colorArray | vectorArray | pointArray | normalArray
  | point2Array | stringArray | transformArray => true
  | _ => false

/-- Whether an output of the first type may feed an input of the second. -/
def linksTo (source target : SocketType) : Bool :=
  source == target ||
    match source.stackSize?, target.stackSize? with
    | some a, some b => a == b && 0 < a
    | _, _ => false

end SocketType

/-- The value that an unlinked input holds.  Closures hold none. -/
inductive SocketValue where
  | none
  | bool (v : Bool)
  | float (v : Float32)
  | int (v : Int32)
  | uint (v : UInt32)
  | vec3 (v : Vec3)
  | vec2 (v : Vec2)
  | string (v : String)
  | transform (v : Transform)
  | bools (v : List Bool)
  | floats (v : List Float32)
  | ints (v : List Int32)
  | vec3s (v : List Vec3)
  | vec2s (v : List Vec2)
  | strings (v : List String)
  | transforms (v : List Transform)
  deriving DecidableEq

namespace SocketValue

def zero : SocketType → SocketValue
  | .boolean => .bool false
  | .float => .float 0
  | .int => .int 0
  | .uint => .uint 0
  | .color | .vector | .point | .normal => .vec3 Vec3.zero
  | .point2 => .vec2 Vec2.zero
  | .closure => .none
  | .string | .enum => .string ""
  | .transform => .transform Transform.identity
  | .booleanArray => .bools []
  | .floatArray => .floats []
  | .intArray => .ints []
  | .colorArray | .vectorArray | .pointArray | .normalArray => .vec3s []
  | .point2Array => .vec2s []
  | .stringArray => .strings []
  | .transformArray => .transforms []

/-- The name of a value's form in documents. -/
def form : SocketValue → String
  | .none => "None"
  | .bool _ => "Bool"
  | .float _ => "Float"
  | .int _ => "Int"
  | .uint _ => "UInt"
  | .vec3 _ => "Float3"
  | .vec2 _ => "Float2"
  | .string _ => "String"
  | .transform _ => "Transform"
  | .bools _ => "BoolArray"
  | .floats _ => "FloatArray"
  | .ints _ => "IntArray"
  | .vec3s _ => "Float3Array"
  | .vec2s _ => "Float2Array"
  | .strings _ => "StringArray"
  | .transforms _ => "TransformArray"

/-- Whether an input of type `ty` may hold the value: it has the form of the type's zero. -/
def fits (v : SocketValue) (ty : SocketType) : Bool := v.form == (zero ty).form

def float? : SocketValue → Option Float32
  | .float v => some v
  | _ => Option.none

def int? : SocketValue → Option Int32
  | .int v => some v
  | _ => Option.none

def vec3? : SocketValue → Option Vec3
  | .vec3 v => some v
  | _ => Option.none

end SocketValue

/-- An input of a node: the value is used while nothing is linked to it.  Internal inputs are
filled in by the compilers and hidden from the external engine. -/
structure Input where
  name : String
  ty : SocketType
  value : SocketValue
  internal : Bool := false

/-- An output of a node. -/
structure Output where
  name : String
  ty : SocketType

end Shading
