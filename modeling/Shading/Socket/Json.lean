import Shading.Socket.Basic
import Shading.Json.Decode

/-!
# Sockets as documents

Vectors are records of their components, a transform is a record of its rows, a value is a variant
named for its form, and a socket is a record.  Decoding checks forms only: whether an input's value
fits its type is not a matter of the document.
-/

namespace Shading

namespace Vec3

def ofJson? (j : Json) : Option Vec3 := do
  let r ← j.fields? ["x", "y", "z"]
  return ⟨← r.get? "x" Json.float32?, ← r.get? "y" Json.float32?, ← r.get? "z" Json.float32?⟩

def toJson (v : Vec3) : Json := .obj [("x", .float v.x), ("y", .float v.y), ("z", .float v.z)]

end Vec3

namespace Vec2

def ofJson? (j : Json) : Option Vec2 := do
  let r ← j.fields? ["x", "y"]
  return ⟨← r.get? "x" Json.float32?, ← r.get? "y" Json.float32?⟩

def toJson (v : Vec2) : Json := .obj [("x", .float v.x), ("y", .float v.y)]

end Vec2

namespace Transform

def ofJson? (j : Json) : Option Transform := do
  let r ← j.fields? ["rows"]
  return ⟨← r.get? "rows" (Json.vector? 3 (Json.vector? 4 Json.float32?))⟩

def toJson (t : Transform) : Json :=
  .obj [("rows", .arr (t.toLists.map fun row => .arr (row.map Json.float)))]

end Transform

namespace SocketType

def ofJson? (j : Json) : Option SocketType := j.enum? all name

def toJson (t : SocketType) : Json := .str t.name

end SocketType

namespace SocketValue

/-- The value of the named form with the given payload. -/
def ofPayload? (form : String) (payload : Json) : Option SocketValue :=
  match form with
  | "Bool" => payload.bool?.map .bool
  | "Float" => payload.float32?.map .float
  | "Int" => payload.int32?.map .int
  | "UInt" => payload.uint32?.map .uint
  | "Float3" => (Vec3.ofJson? payload).map .vec3
  | "Float2" => (Vec2.ofJson? payload).map .vec2
  | "String" => payload.str?.map .string
  | "Transform" => (Transform.ofJson? payload).map .transform
  | "BoolArray" => (payload.list? Json.bool?).map .bools
  | "FloatArray" => (payload.list? Json.float32?).map .floats
  | "IntArray" => (payload.list? Json.int32?).map .ints
  | "Float3Array" => (payload.list? Vec3.ofJson?).map .vec3s
  | "Float2Array" => (payload.list? Vec2.ofJson?).map .vec2s
  | "StringArray" => (payload.list? Json.str?).map .strings
  | "TransformArray" => (payload.list? Transform.ofJson?).map .transforms
  | _ => Option.none

def ofJson? (j : Json) : Option SocketValue := do
  let (form, payload) ← j.variant?
  if form = "None" then
    if Json.isVoid payload then some .none else Option.none
  else payload.bind (ofPayload? form)

/-- What stands beside the form in a value's document, if anything. -/
def payload? : SocketValue → Option Json
  | .none => Option.none
  | .bool v => some (.bool v)
  | .float v => some (.float v)
  | .int v => some (.int v.toInt)
  | .uint v => some (.nat v.toNat)
  | .vec3 v => some v.toJson
  | .vec2 v => some v.toJson
  | .string v => some (.str v)
  | .transform v => some v.toJson
  | .bools v => some (.arr (v.map .bool))
  | .floats v => some (.arr (v.map .float))
  | .ints v => some (.arr (v.map fun i => .int i.toInt))
  | .vec3s v => some (.arr (v.map Vec3.toJson))
  | .vec2s v => some (.arr (v.map Vec2.toJson))
  | .strings v => some (.arr (v.map .str))
  | .transforms v => some (.arr (v.map Transform.toJson))

def toJson (v : SocketValue) : Json :=
  match v.payload? with
  | Option.none => .str v.form
  | some p => .obj [(v.form, p)]

end SocketValue

namespace Input

def ofJson? (j : Json) : Option Input := do
  let r ← j.fields? ["name", "ty", "value", "internal"]
  return ⟨← r.get? "name" Json.str?, ← r.get? "ty" SocketType.ofJson?,
    ← r.get? "value" SocketValue.ofJson?, ← r.get? "internal" Json.bool?⟩

def toJson (i : Input) : Json :=
  .obj [("name", .str i.name), ("ty", i.ty.toJson), ("value", i.value.toJson),
    ("internal", .bool i.internal)]

end Input

namespace Output

def ofJson? (j : Json) : Option Output := do
  let r ← j.fields? ["name", "ty"]
  return ⟨← r.get? "name" Json.str?, ← r.get? "ty" SocketType.ofJson?⟩

def toJson (o : Output) : Json := .obj [("name", .str o.name), ("ty", o.ty.toJson)]

end Output

end Shading
