import Shading.Graph.Finalize
import Shading.Network.Json

/-!
# Graphs as documents

A graph is a record of its network and output node, with the options of the last preparation and
the network before it, which may both be missing.  A document may be malformed, or it may be well
formed and describe something that is not a graph; the two failures are kept apart.
-/

namespace Shading

/-- Why a document gives no value: it has the wrong form, or the graph in it is refused. -/
inductive LoadError where
  | malformed
  | refused (error : GraphError)
  deriving DecidableEq, Repr

/-- Reading with a form that has failed already. -/
def LoadError.ofOption {α : Type} : Option α → Except LoadError α
  | some a => .ok a
  | none => .error .malformed

namespace FinalizeOptions

def ofJson? (j : Json) : Option FinalizeOptions := do
  let r ← j.fields? ["do_bump", "bump_in_object_space"]
  return ⟨← r.get? "do_bump" Json.bool?, ← r.get? "bump_in_object_space" Json.bool?⟩

def toJson (o : FinalizeOptions) : Json :=
  .obj [("do_bump", .bool o.doBump), ("bump_in_object_space", .bool o.bumpInObjectSpace)]

end FinalizeOptions

namespace Graph

/-- What the document of a graph holds, before it is checked. -/
structure Raw where
  net : Network
  output : NodeId
  finalized : Option FinalizeOptions
  unfinalized : Option Network

def Raw.ofJson? (j : Json) : Option Raw := do
  let r ← j.record? ["nodes", "output", "finalized", "unfinalized"] 2
  return ⟨← r.get? "nodes" Network.ofJson?, ← r.get? "output" Json.index32?,
    ← r.option? "finalized" FinalizeOptions.ofJson?, ← r.option? "unfinalized" Network.ofJson?⟩

/-- Checks the parts.  A cycle in the earlier network is found first, then a missing output node,
then a cycle in the network itself. -/
def ofRaw (raw : Raw) : Except GraphError Graph := do
  if raw.unfinalized.any Network.isCyclic then .error .cyclicGraph
  else
    let g ← ofNetwork raw.net raw.output
    return { g with finalized := raw.finalized, unfinalized := raw.unfinalized }

def ofJson (j : Json) : Except LoadError Graph := do
  let raw ← LoadError.ofOption (Raw.ofJson? j)
  (ofRaw raw).mapError .refused

def toJson (g : Graph) : Json :=
  .obj [("nodes", g.net.toJson), ("output", .nat g.output),
    ("finalized", Json.ofOption FinalizeOptions.toJson g.finalized),
    ("unfinalized", Json.ofOption Network.toJson g.unfinalized)]

end Graph

end Shading
