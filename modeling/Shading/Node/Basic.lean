import Shading.Node.Kind

/-!
# Nodes

A node is a kind with its sockets.  Sockets are found by name, the first of several with one name;
names that are not there give zero where a value is asked for.
-/

namespace Shading

/-- The number of a node in its graph. -/
abbrev NodeId : Type := Nat

/-- A node: what it does, and its sockets. -/
structure Node where
  kind : NodeKind
  inputs : List Input
  outputs : List Output

namespace Node

/-- A node with the sockets that its kind starts with. -/
def ofKind (kind : NodeKind) : Node := ⟨kind, kind.inputs, kind.outputs⟩

instance : Inhabited Node := ⟨ofKind .output⟩

/-- The position of the first input with the name. -/
def inputIndex? (n : Node) (name : String) : Option Nat := n.inputs.findIdx? fun i => i.name == name

/-- The position of the first output with the name. -/
def outputIndex? (n : Node) (name : String) : Option Nat :=
  n.outputs.findIdx? fun o => o.name == name

/-- The first input with the name. -/
def input? (n : Node) (name : String) : Option Input := n.inputs.find? fun i => i.name == name

/-- The number that the named input holds, or zero. -/
def float (n : Node) (name : String) : Float32 :=
  ((n.input? name).bind fun i => i.value.float?).getD 0

/-- The vector that the named input holds, or zero. -/
def vec3 (n : Node) (name : String) : Vec3 :=
  ((n.input? name).bind fun i => i.value.vec3?).getD Vec3.zero

/-- The weight input of surfaces or of volumes. -/
def weightIndex? (n : Node) (volume : Bool) : Option Nat :=
  n.inputIndex? (if volume then volumeWeight else surfaceWeight)

/-- The node with another value in the input at a position; positions beyond the inputs change
nothing. -/
def setValue (n : Node) (input : Nat) (value : SocketValue) : Node :=
  { n with inputs := n.inputs.modify input fun i => { i with value } }

end Node

end Shading
