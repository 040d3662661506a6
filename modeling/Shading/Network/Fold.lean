import Shading.Network.Basic

/-!
# Folding constants

Nodes whose result is known before shading are folded into the nodes that use it: plain values and
colors, arithmetic on constants, light sources that are black or switched off, and mixes whose
factor picks one side.

One round visits all nodes in ascending order and counts the links that changed.  Rounds are
repeated until one changes nothing.  Every change either removes a link or moves its source to a
node that feeds the old one, so on a network without cycles there are at most `links * nodes` of them.
-/

namespace Shading

/-- What folding does to a node. -/
inductive Fold where
  /-- Nothing is known about the node. -/
  | keep
  /-- The first output is a constant. -/
  | constant (value : SocketValue)
  /-- The node contributes nothing. -/
  | discard
  /-- The node passes on what one of its inputs receives. -/
  | bypass (input : Nat)
  deriving DecidableEq

namespace MathOp

/-- The number brought between zero and one. -/
def clampUnit (x : Float32) : Float32 := if x < 0 then 0 else if 1 < x then 1 else x

/-- The result on constants, brought between zero and one if asked for. -/
def applyClamped (op : MathOp) (useClamp : Bool) (a b : Float32) : Float32 :=
  if useClamp then clampUnit (op.apply a b) else op.apply a b

end MathOp

namespace Network

def isLinkedByName (net : Network) (id : NodeId) (name : String) : Bool :=
  (net.inputLinkByName? id name).isSome

/-- What folding does to the node. -/
def foldOf (net : Network) (id : NodeId) (node : Node) : Fold :=
  let linked := net.isLinkedByName id
  match node.kind with
  | .value v => .constant (.float v)
  | .rgb color => .constant (.vec3 color)
  | .math op useClamp =>
    if linked "Value1" || linked "Value2" then .keep
    else .constant (.float (op.applyClamped useClamp (node.float "Value1") (node.float "Value2")))
  | .emission | .background =>
    let dark := !linked "Color" && (node.vec3 "Color").isZero
    let off := !linked "Strength" && node.float "Strength" == 0
    if dark || off then .discard else .keep
  | .mixClosure =>
    if linked "Fac" then .keep
    else if node.float "Fac" == 0 then .bypass 1
    else if node.float "Fac" == 1 then .bypass 2
    else .keep
  | _ => .keep

/-- The constant as a value of an input's type, if the type accepts it. -/
def convertConstant (value : SocketValue) (ty : SocketType) : Option SocketValue :=
  match value with
  | .float v =>
    if ty = .float then some (.float v)
    else if ty.isVec3 then some (.vec3 (Vec3.splat v))
    else none
  | .vec3 v => if ty.isVec3 then some (.vec3 v) else none
  | _ => none

/-- Copies a constant into one input and unlinks it, if its type accepts the constant.  Counts the
links removed. -/
def foldInto (value : SocketValue) (acc : Network × Nat) (socket : NodeId × Nat) : Network × Nat :=
  let (net, count) := acc
  match (net.input? socket.1 socket.2).bind fun i => convertConstant value i.ty with
  | some v => ((net.setValue socket.1 socket.2 v).unlink socket.1 socket.2, count + 1)
  | none => (net, count)

/-- Copies a constant into everything that the first output feeds. -/
def propagateConstant (net : Network) (id : NodeId) (value : SocketValue) : Network × Nat :=
  (net.outputLinks id 0).foldl (foldInto value) (net, 0)

/-- Leads what the first output feeds back to what feeds the given input. -/
def bypass (net : Network) (id : NodeId) (input : Nat) : Network × Nat :=
  let consumers := net.outputLinks id 0
  let cut := net.removeOutgoing id
  match net.inputLink? id input with
  | some source => (consumers.foldl (fun net c => net.link source c.1 c.2) cut, consumers.length)
  | none => (cut, consumers.length)

def foldNode (net : Network) (id : NodeId) : Network × Nat :=
  match net.node? id with
  | none => (net, 0)
  | some node =>
    match net.foldOf id node with
    | .keep => (net, 0)
    | .constant value => net.propagateConstant id value
    | .discard => (net.removeOutgoing id, (net.outgoing id).length)
    | .bypass input => net.bypass id input

/-- Folds every node once, in ascending order; counts the links that changed. -/
def foldRound (net : Network) : Network × Nat :=
  net.ids.foldl
    (fun acc id => let (net, n) := acc.1.foldNode id; (net, acc.2 + n)) (net, 0)

/-- Repeats rounds until one changes nothing. -/
def foldRounds : Nat → Network → Network
  | 0, net => net
  | fuel + 1, net =>
    let (net, changed) := net.foldRound
    if changed = 0 then net else foldRounds fuel net

def foldConstants (net : Network) : Network :=
  foldRounds (net.linkCount * (net.nodeCount + 1) + 1) net

end Network

end Shading
