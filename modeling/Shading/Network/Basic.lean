import Shading.Node.Basic

/-!
# Networks

A network is a set of numbered nodes and the links between their sockets.  Numbers are stable:
removing a node or a link vacates its number, and the number vacated last is the first to be used
again.

Links are kept newest first.  An input takes its value from the newest link into it, so if several
links enter one input the latest wins.
-/

namespace Shading

/-- A link from an output of one node to an input of another.  Sockets are named by position. -/
structure Link where
  source : NodeId
  output : UInt16
  target : NodeId
  input : UInt16
  deriving DecidableEq, Repr

/-- Nodes with their links. -/
structure Network where
  /-- The nodes by number; a vacated number has none. -/
  nodes : Array (Option Node)
  /-- The vacated numbers below the size of `nodes`, the one vacated last in front. -/
  vacant : List NodeId
  /-- The links with their numbers, the newest in front. -/
  links : List (Nat × Link)
  /-- The vacated link numbers, the one vacated last in front. -/
  vacantLinks : List Nat
  /-- All link numbers in use or vacated are below this one. -/
  linkBound : Nat

namespace Network

def empty : Network := ⟨#[], [], [], [], 0⟩

instance : Inhabited Network := ⟨empty⟩

/-! ## Nodes -/

def node? (net : Network) (id : NodeId) : Option Node := (net.nodes[id]?).join

def contains (net : Network) (id : NodeId) : Bool := (net.node? id).isSome

/-- The numbers of all nodes, ascending. -/
def ids (net : Network) : List NodeId := (List.range net.nodes.size).filter net.contains

def nodeCount (net : Network) : Nat := net.ids.length

/-- One more than the highest number of a node. -/
def bound (net : Network) : Nat := match net.ids.getLast? with
  | some id => id + 1
  | none => 0

def linkCount (net : Network) : Nat := net.links.length

/-- Adds a node under the number vacated last, or else under a new one. -/
def addNode (net : Network) (node : Node) : NodeId × Network :=
  match net.vacant with
  | id :: vacant => (id, { net with nodes := net.nodes.setIfInBounds id (some node), vacant })
  | [] => (net.nodes.size, { net with nodes := net.nodes.push (some node) })

def modifyNode (net : Network) (id : NodeId) (f : Node → Node) : Network :=
  { net with nodes := net.nodes.modify id (Option.map f) }

/-- Changes the value that an input holds; what is not there is left alone. -/
def setValue (net : Network) (id : NodeId) (input : Nat) (value : SocketValue) : Network :=
  net.modifyNode id fun node => node.setValue input value

def input? (net : Network) (id : NodeId) (input : Nat) : Option Input :=
  (net.node? id).bind fun node => node.inputs[input]?

/-! ## Links -/

/-- The links out of a node, the newest first. -/
def outgoing (net : Network) (id : NodeId) : List (Nat × Link) :=
  net.links.filter fun l => l.2.source == id

/-- The links into a node, the newest first. -/
def incoming (net : Network) (id : NodeId) : List (Nat × Link) :=
  net.links.filter fun l => l.2.target == id

/-- The newest link into an input, with its number. -/
def feed? (net : Network) (id : NodeId) (input : Nat) : Option (Nat × Link) :=
  net.links.find? fun l => l.2.target == id && l.2.input.toNat == input

/-- The output that feeds an input. -/
def inputLink? (net : Network) (id : NodeId) (input : Nat) : Option (NodeId × Nat) :=
  (net.feed? id input).map fun l => (l.2.source, l.2.output.toNat)

/-- The output that feeds the input with the name. -/
def inputLinkByName? (net : Network) (id : NodeId) (name : String) : Option (NodeId × Nat) := do
  net.inputLink? id (← (← net.node? id).inputIndex? name)

def isInputLinked (net : Network) (id : NodeId) (input : Nat) : Bool :=
  (net.inputLink? id input).isSome

/-- The order of sockets: by node and then by position. -/
def socketLe (a b : NodeId × Nat) : Bool := a.1 < b.1 || (a.1 == b.1 && a.2 ≤ b.2)

/-- Adds a socket to a list that is in order. -/
def insertSocket (a : NodeId × Nat) : List (NodeId × Nat) → List (NodeId × Nat)
  | [] => [a]
  | b :: l => if socketLe a b then a :: b :: l else b :: insertSocket a l

/-- The inputs that an output feeds, in order. -/
def outputLinks (net : Network) (id : NodeId) (output : Nat) : List (NodeId × Nat) :=
  (((net.outgoing id).filter fun l => l.2.output.toNat == output).map fun l =>
    (l.2.target, l.2.input.toNat)).foldr insertSocket []

/-- Whether an output feeds anything. -/
def isOutputLinked (net : Network) (id : NodeId) (output : Nat) : Bool :=
  (net.outgoing id).any fun l => l.2.output.toNat == output

/-- Adds a link under the number vacated last, or else under a new one. -/
def addLink (net : Network) (link : Link) : Network :=
  match net.vacantLinks with
  | slot :: vacantLinks => { net with links := (slot, link) :: net.links, vacantLinks }
  | [] =>
    { net with links := (net.linkBound, link) :: net.links, linkBound := net.linkBound + 1 }

/-- Removes the link with the number and vacates the number. -/
def removeLink (net : Network) (slot : Nat) : Network :=
  { net with
    links := net.links.filter fun l => l.1 != slot
    vacantLinks := slot :: net.vacantLinks }

/-- Removes the newest link into an input. -/
def unlink (net : Network) (id : NodeId) (input : Nat) : Network :=
  match net.feed? id input with
  | some (slot, _) => net.removeLink slot
  | none => net

/-- Links an output to an input, in place of the newest link into it. -/
def link (net : Network) (source : NodeId × Nat) (target : NodeId) (input : Nat) : Network :=
  (net.unlink target input).addLink
    ⟨source.1, UInt16.ofNat source.2, target, UInt16.ofNat input⟩

/-- Removes all links out of a node, the newest first. -/
def removeOutgoing (net : Network) (id : NodeId) : Network :=
  (net.outgoing id).foldl (fun net l => net.removeLink l.1) net

/-- Removes all links into a node, the newest first. -/
def removeIncoming (net : Network) (id : NodeId) : Network :=
  (net.incoming id).foldl (fun net l => net.removeLink l.1) net

/-- Removes a node: first the links out of it, then the links into it, then the node itself. -/
def removeNode (net : Network) (id : NodeId) : Network :=
  let net := (net.removeOutgoing id).removeIncoming id
  { net with nodes := net.nodes.setIfInBounds id none, vacant := id :: net.vacant }

end Network

end Shading
