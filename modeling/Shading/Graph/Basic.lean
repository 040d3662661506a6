import Shading.Network.Path

/-!
# Shader graphs

A graph is a network with one output node.  Edits keep it free of cycles and well typed: a link
that would close a cycle or join sockets of unrelated types is refused, and an input accepts only
values that fit its type.

A graph that has been made ready for compilation remembers with which options, and the network as
it was before.  Every edit forgets both, except that removing a link keeps them.
-/

namespace Shading

/-- Why an operation on a graph fails. -/
inductive GraphError where
  | nodeNotFound (id : NodeId)
  | inputNotFound (node : NodeId) (name : String)
  | outputNotFound (node : NodeId) (name : String)
  | incompatibleLink (source target : SocketType)
  | wouldCreateCycle (source target : NodeId)
  | valueTypeMismatch (name : String) (expected : SocketType)
  | missingOutput
  | cyclicGraph
  | unschedulable (remaining : List NodeId)
  deriving DecidableEq, Repr

namespace GraphError

def showIds (ids : List NodeId) : String :=
  "[" ++ ", ".intercalate (ids.map fun id => "NodeId(" ++ toString id ++ ")") ++ "]"

def message : GraphError → String
  | nodeNotFound id => "node not found: NodeId(" ++ toString id ++ ")"
  | inputNotFound node name => "node " ++ toString node ++ " has no input named '" ++ name ++ "'"
  | outputNotFound node name => "node " ++ toString node ++ " has no output named '" ++ name ++ "'"
  | incompatibleLink source target =>
    "cannot link " ++ source.name ++ " output to " ++ target.name ++ " input"
  | wouldCreateCycle source target =>
    "linking node " ++ toString source ++ " into node " ++ toString target ++
      " would create a cycle"
  | valueTypeMismatch name expected => "input '" ++ name ++ "' expects " ++ expected.name
  | missingOutput => "graph has no output node"
  | cyclicGraph => "shader graph contains a cycle"
  | unschedulable remaining =>
    "cannot schedule " ++ toString remaining.length ++ " node(s), cycle detected: " ++
      showIds remaining

end GraphError

/-- How a graph is made ready for compilation. -/
structure FinalizeOptions where
  /-- Derive the surface normal from the displacement. -/
  doBump : Bool := false
  bumpInObjectSpace : Bool := false
  deriving DecidableEq, Repr

/-- A network with its output node. -/
structure Graph where
  net : Network
  output : NodeId
  /-- The options of the last preparation, unless an edit came after it. -/
  finalized : Option FinalizeOptions := none
  /-- The network before the last preparation. -/
  unfinalized : Option Network := none

namespace Graph

/-- A graph that holds only its output node. -/
def new : Graph :=
  let (output, net) := Network.empty.addNode (.ofKind .output)
  { net, output }

instance : Inhabited Graph := ⟨new⟩

/-- Checks a network from elsewhere: its output node is there and its links form no cycle.  Socket
types are not checked. -/
def ofNetwork (net : Network) (output : NodeId) : Except GraphError Graph :=
  match net.node? output with
  | some node =>
    if node.kind = .output then
      if net.isCyclic then .error .cyclicGraph else .ok { net, output }
    else .error .missingOutput
  | none => .error .missingOutput

/-! ## Reading -/

def isFinalized (g : Graph) : Bool := g.finalized.isSome

def require (g : Graph) (id : NodeId) : Except GraphError Node :=
  match g.net.node? id with
  | some node => .ok node
  | none => .error (.nodeNotFound id)

def outputNode (g : Graph) : Node := (g.net.node? g.output).getD (.ofKind .output)

/-! ## Edits -/

/-- The graph with another network; what was known about preparation is forgotten. -/
def edit (_g : Graph) (net : Network) : Graph := { net, output := _g.output }

def addNode (g : Graph) (node : Node) : NodeId × Graph :=
  let (id, net) := g.net.addNode node
  (id, g.edit net)

def add (g : Graph) (kind : NodeKind) : NodeId × Graph := g.addNode (.ofKind kind)

/-- Sets the value that the named input holds while it is unlinked. -/
def setInput (g : Graph) (id : NodeId) (name : String) (value : SocketValue) :
    Except GraphError Graph := do
  let node ← g.require id
  match node.inputIndex? name, node.input? name with
  | some index, some input =>
    if value.fits input.ty then return g.edit (g.net.setValue id index value)
    else .error (.valueTypeMismatch name input.ty)
  | _, _ => .error (.inputNotFound id name)

/-- The position and type of a node's output by name. -/
def requireOutput (g : Graph) (id : NodeId) (name : String) :
    Except GraphError (Nat × SocketType) := do
  let node ← g.require id
  match node.outputs.findIdx? (fun o => o.name == name), node.outputs.find? (fun o => o.name == name)
  with
  | some index, some output => return (index, output.ty)
  | _, _ => .error (.outputNotFound id name)

/-- The position and type of a node's input by name. -/
def requireInput (g : Graph) (id : NodeId) (name : String) :
    Except GraphError (Nat × SocketType) := do
  let node ← g.require id
  match node.inputIndex? name, node.input? name with
  | some index, some input => return (index, input.ty)
  | _, _ => .error (.inputNotFound id name)

/-- Links an output to an input, in place of the link that fed the input. -/
def connect (g : Graph) (source : NodeId) (output : String) (target : NodeId) (input : String) :
    Except GraphError Graph := do
  let (outIndex, outType) ← g.requireOutput source output
  let (inIndex, inType) ← g.requireInput target input
  if !outType.linksTo inType then .error (.incompatibleLink outType inType)
  else if g.net.hasPath target source then .error (.wouldCreateCycle source target)
  else return g.edit (g.net.link (source, outIndex) target inIndex)

/-- Removes the link that feeds an input; says whether there was one. -/
def disconnect (g : Graph) (target : NodeId) (input : String) :
    Except GraphError (Bool × Graph) := do
  let (index, _) ← g.requireInput target input
  return (g.net.isInputLinked target index, { g with net := g.net.unlink target index })

end Graph

end Shading
