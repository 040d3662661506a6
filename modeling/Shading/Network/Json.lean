import Shading.Network.Basic
import Shading.Node.Json

/-!
# Networks as documents

The nodes are listed in the order of their numbers, with the vacated numbers beside them; the links
are listed by number, null for a vacated one.  What is vacated beyond the last node, or beyond the
last link, is not written.

Reading rebuilds the order of reuse: the highest vacated number is used first.
-/

namespace Shading

namespace Link

def toJson (l : Link) : Json :=
  .arr [.nat l.source, .nat l.target,
    .obj [("from_output", .nat l.output.toNat), ("to_input", .nat l.input.toNat)]]

def ofJson? : Json → Option Link
  | .arr [source, target, sockets] => do
    let r ← sockets.fields? ["from_output", "to_input"]
    return ⟨← source.index32?, ← r.get? "from_output" Json.uint16?, ← target.index32?,
      ← r.get? "to_input" Json.uint16?⟩
  | _ => none

end Link

namespace Network

/-- The vacated numbers below the last node, ascending. -/
def holes (net : Network) : List NodeId :=
  (List.range net.bound).filter fun id => !net.contains id

/-- One more than the highest number of a link. -/
def lastLinkBound (net : Network) : Nat := (net.links.map fun l => l.1 + 1).foldl max 0

/-- The links by number, up to the last one. -/
def linkSlots (net : Network) : List (Option Link) :=
  (List.range net.lastLinkBound).map fun slot => net.links.lookup slot

def toJson (net : Network) : Json :=
  .obj [("nodes", .arr (net.ids.filterMap fun id => (net.node? id).map Node.toJson)),
    ("node_holes", .arr (net.holes.map .nat)),
    ("edge_property", .str "directed"),
    ("edges", .arr (net.linkSlots.map (Json.ofOption Link.toJson)))]

/-- Whether numbers are ascending and below a bound. -/
def isAscendingBelow (bound : Nat) : List Nat → Bool
  | [] => true
  | [a] => a < bound
  | a :: b :: rest => a < b && isAscendingBelow bound (b :: rest)

/-- Spreads nodes over the numbers from `id` on, leaving out the holes. -/
def spread : Nat → NodeId → List NodeId → List Node → List (Option Node)
  | 0, _, _, _ => []
  | n + 1, id, holes, nodes =>
    if holes.head? = some id then none :: spread n (id + 1) holes.tail nodes
    else nodes.head? :: spread n (id + 1) holes nodes.tail

/-- A network of nodes, holes and links by number; `none` if the holes are not ascending or
something lies beyond the last number. -/
def ofParts? (nodes : List Node) (holes : List NodeId) (slots : List (Option Link)) :
    Option Network :=
  let size := nodes.length + holes.length
  let numbered := slots.zipIdx
  if isAscendingBelow size holes &&
      slots.all fun l => l.all fun l => l.source < size && l.target < size then
    some {
      nodes := (spread size 0 holes nodes).toArray
      vacant := holes.reverse
      links := (numbered.filterMap fun (l, slot) => l.map (slot, ·)).reverse
      vacantLinks := (numbered.filterMap fun (l, slot) =>
        if l.isNone then some slot else none).reverse
      linkBound := slots.length }
  else none

def ofJson? (j : Json) : Option Network := do
  let r ← j.fields? ["nodes", "node_holes", "edge_property", "edges"]
  let nodes ← r.get? "nodes" (Json.list? Node.ofJson?)
  let holes ← r.getD? "node_holes" [] (Json.list? Json.index32?)
  let _ ← r.get? "edge_property" (Json.enum? [()] fun _ => "directed")
  let slots ← r.get? "edges" (Json.list? (Json.option? Link.ofJson?))
  ofParts? nodes holes slots

end Network

end Shading
