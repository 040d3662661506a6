import Shading.Network.Path
import Shading.OrderedSet

/-!
# Dependencies

Both compilers ask which nodes have to be emitted before an input can be read.  They differ only in
which inputs they skip and which nodes are done, so both are parameters here.

The answer is in postorder: a node comes after everything that it depends on itself.  The search
keeps a list of the nodes that it may still enter; entering one strikes it from the list.
-/

namespace Shading

/-- A set of nodes in the order in which they were added. -/
abbrev NodeSet : Type := OrderedSet NodeId

/-- The nodes that feed a node through inputs that are not skipped, in the order of the inputs. -/
def Network.sources (net : Network) (skip : NodeId → Nat → Bool) (id : NodeId) : List NodeId :=
  match net.node? id with
  | none => []
  | some node =>
    (List.range node.inputs.length).filterMap fun input =>
      if skip id input then none else (net.inputLink? id input).map Prod.fst

/-- A node on the path of the search, with the sources it has not looked at yet. -/
abbrev Frame : Type := NodeId × List NodeId

/-- How much is left to do on a path. -/
def Frame.work (path : List Frame) : Nat := total (fun f => f.2.length + 1) path

/-- Depth-first search along a path: a node is added to `found` when all its sources have been
looked at. -/
def postorder (sources : NodeId → List NodeId) (fresh : List NodeId) (path : List Frame)
    (found : NodeSet) : NodeSet :=
  match path with
  | [] => found
  | (id, []) :: path => postorder sources fresh path (found.insert id)
  | (id, next :: rest) :: path =>
    if next ∈ fresh then
      postorder sources (fresh.erase next) ((next, sources next) :: (id, rest) :: path) found
    else postorder sources fresh ((id, rest) :: path) found
termination_by Frame.work path + total (fun n => (sources n).length + 1) fresh
decreasing_by
  · simp [Frame.work, total]
  · rename_i h
    have htotal := total_erase (fun n => (sources n).length + 1) h
    simp only [Frame.work, total, List.length_cons]
    omega
  · simp [Frame.work, total]

/-- Adds the nodes that an input depends on to `found`, except done ones, ones already in `found`,
and `avoid`; nothing is entered through those. -/
def Network.dependencies (net : Network) (skip : NodeId → Nat → Bool) (isDone : NodeId → Bool)
    (found : NodeSet) (id : NodeId) (input : Nat) (avoid : Option NodeId) : NodeSet :=
  if skip id input then found
  else
    match net.inputLink? id input with
    | none => found
    | some (first, _) =>
      let fresh := (List.range net.nodes.size).filter fun n =>
        !isDone n && some n != avoid && !found.contains n
      if first ∈ fresh then
        postorder (net.sources skip) (fresh.erase first) [(first, net.sources skip first)] found
      else found

end Shading
