import Shading.Network.Basic

/-!
# Weights of closures

A tree of mixes and sums of closures is turned into one weight per closure.  Walking down from the
closure that feeds a terminal, every mix gets a node that splits the incoming weight by its factor,
every sum hands the incoming weight to both sides, and every closure receives the weight that
arrives at it in its weight input.

A closure that several branches use accumulates: what its weight input held before is added to the
new weight.
-/

namespace Shading.Network

/-- The output that carries a weight; `none` stands for the constant one. -/
abbrev Weight : Type := Option (NodeId × Nat)

/-- Feeds an input from a weight, or sets it to the constant. -/
def feedWeight (net : Network) (id : NodeId) (input : Nat) (weight : Weight) (constant : Float32) :
    Network :=
  match weight with
  | some source => net.link source id input
  | none => net.setValue id input (.float constant)

/-- Splits a weight by the factor of a mix: adds the node that does it and returns the weights of
both sides.  A node without factor hands on the weight unchanged. -/
def splitWeight (net : Network) (id : NodeId) (node : Node) (weight : Weight) :
    Network × Weight × Weight :=
  match node.inputIndex? "Fac" with
  | none => (net, weight, weight)
  | some factor =>
    let source := net.inputLink? id factor
    let (mix, net) := net.addNode (.ofKind .mixClosureWeight)
    let net := net.feedWeight mix 1 source (node.float "Fac")
    let net := match weight with
      | some source => net.link source mix 0
      | none => net
    (net, some (mix, 0), some (mix, 1))

/-- Adds a weight to the weight input of a closure.  What the input holds, or what feeds it, is
added to the new weight by a node of its own. -/
def addWeight (net : Network) (id : NodeId) (node : Node) (input : Nat) (weight : Weight) :
    Network :=
  let held := ((node.inputs[input]?).bind fun i => i.value.float?).getD 0
  let source := net.inputLink? id input
  if source.isSome || held != 0 then
    let (sum, net) := net.addNode (.ofKind (.math .add false))
    let net := net.feedWeight sum 0 source held
    let net := net.feedWeight sum 1 weight 1
    let net := if source.isSome then net.unlink id input else net
    net.link (sum, 0) id input
  else net.feedWeight id input weight (held + 1)

/-- Distributes a weight over the closures below a node.  The fuel bounds the depth of the tree. -/
def distribute (volume : Bool) : Nat → Network → NodeId → Weight → Network
  | 0, net, _, _ => net
  | fuel + 1, net, id, weight =>
    match net.node? id with
    | none => net
    | some node =>
      if node.kind.special = .combineClosure then
        let first := (node.inputIndex? "Closure1").bind (net.inputLink? id)
        let second := (node.inputIndex? "Closure2").bind (net.inputLink? id)
        let (net, weight1, weight2) := net.splitWeight id node weight
        let net := match first with
          | some (source, _) => distribute volume fuel net source weight1
          | none => net
        match second with
        | some (source, _) => distribute volume fuel net source weight2
        | none => net
      else
        match node.weightIndex? volume with
        | some input => net.addWeight id node input weight
        | none => net

/-- Distributes the weight one over the closures that feed a terminal of the output node. -/
def distributeFrom (net : Network) (output : NodeId) (terminal : String) (volume : Bool) :
    Network :=
  match net.inputLinkByName? output terminal with
  | some (root, _) => distribute volume (net.nodeCount + 1) net root none
  | none => net

end Shading.Network
