import Shading.Graph.Basic
import Shading.Network.Fold
import Shading.Network.Weights

/-!
# Making a graph ready for compilation

Constants are folded, nodes that cannot influence the output are removed, the surface normal is
derived from the displacement if asked for, and trees of closures are turned into weights.

Doing it twice with the same options changes nothing.  Other options start again from the network
as it was before.
-/

namespace Shading

namespace Network

/-- Removes the nodes from which no path leads to `output`. -/
def removeUnreachable (net : Network) (output : NodeId) : Network :=
  let kept := reachable net.predecessors (List.range net.nodes.size) [output]
  (net.ids.filter fun id => !kept.contains id).foldl removeNode net

/-- Derives the normal of the output node from its displacement, if it has one. -/
def bumpFromDisplacement (net : Network) (output : NodeId) (useObjectSpace : Bool) : Network :=
  match (net.node? output).bind (·.inputIndex? "Displacement"),
      (net.node? output).bind (·.inputIndex? "Normal") with
  | some displacement, some normal =>
    match net.inputLink? output displacement with
    | some source =>
      let (bump, net) := net.addNode (.ofKind (.bumpFromDisplacement useObjectSpace))
      (net.link source bump 0).link (bump, 0) output normal
    | none => net
  | _, _ => net

def finalize (net : Network) (output : NodeId) (options : FinalizeOptions) : Network :=
  let net := net.foldConstants.removeUnreachable output
  let net :=
    if options.doBump then net.bumpFromDisplacement output options.bumpInObjectSpace else net
  (net.distributeFrom output "Surface" false).distributeFrom output "Volume" true

end Network

namespace Graph

/-- The network from which preparation starts: the one before the last preparation, if there was
one. -/
def base (g : Graph) : Network :=
  match g.finalized with
  | some _ => g.unfinalized.getD g.net
  | none => g.net

def finalize (g : Graph) (options : FinalizeOptions) : Graph :=
  if g.finalized = some options then g
  else
    { g with
      net := g.base.finalize g.output options
      finalized := some options
      unfinalized := some g.base }

theorem finalize_finalize (g : Graph) (options : FinalizeOptions) :
    (g.finalize options).finalize options = g.finalize options := by
  by_cases h : g.finalized = some options <;> simp [finalize, h]

end Graph

end Shading
