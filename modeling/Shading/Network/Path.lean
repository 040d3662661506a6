import Shading.Network.Basic

/-!
# Paths through a network

`reachable` collects what can be reached from some nodes by following `next`.  Every node is
entered at most once: entering it strikes it from the list of nodes not yet seen.  What is left to
do is measured by the work at hand and all the work that nodes not yet seen can still bring.

A network has a cycle exactly if some link closes one, that is, if a path leads from the target of
a link back to its source.
-/

namespace Shading

/-- The work that the members of a list bring together. -/
def total {α : Type} (work : α → Nat) : List α → Nat
  | [] => 0
  | a :: l => work a + total work l

theorem total_erase (work : NodeId → Nat) {l : List NodeId} {a : NodeId} (h : a ∈ l) :
    work a + total work (l.erase a) = total work l := by
  induction l with
  | nil => cases h
  | cons b l ih =>
    by_cases e : b = a
    · simp [e, total]
    · rw [List.erase_cons_tail (by simpa using e)]
      have := ih ((List.mem_cons.1 h).resolve_left fun e' => e e'.symm)
      simp only [total]
      omega

/-- The nodes among `fresh` that can be reached from those in `work`, in the order in which a
depth-first search enters them. -/
def reachable (next : NodeId → List NodeId) (fresh work : List NodeId) : List NodeId :=
  match work with
  | [] => []
  | id :: work =>
    if id ∈ fresh then id :: reachable next (fresh.erase id) (next id ++ work)
    else reachable next fresh work
termination_by work.length + total (fun n => (next n).length + 1) fresh
decreasing_by
  · rename_i h
    have htotal := total_erase (fun n => (next n).length + 1) h
    simp only [List.length_append, List.length_cons]
    omega
  · simp only [List.length_cons]
    omega

namespace Network

/-- The nodes that a node feeds. -/
def successors (net : Network) (id : NodeId) : List NodeId :=
  (net.outgoing id).map fun l => l.2.target

/-- The nodes that feed a node. -/
def predecessors (net : Network) (id : NodeId) : List NodeId :=
  (net.incoming id).map fun l => l.2.source

/-- Whether links lead from `source` to `target`; every node leads to itself. -/
def hasPath (net : Network) (source target : NodeId) : Bool :=
  source == target ||
    (reachable net.successors (List.range net.nodes.size) [source]).contains target

/-- Whether some link closes a cycle. -/
def isCyclic (net : Network) : Bool :=
  net.links.any fun l => net.hasPath l.2.target l.2.source

end Network

end Shading
