import Shading.Walk.Dependencies

/-!
# Scheduling

A set of nodes is emitted in passes.  Every pass goes through the nodes that are left, in order,
emits those whose sources are all done and keeps the others.  It ends when nothing is left; a pass
that emits nothing and keeps something can never be followed by one that does better, and is an
error.

Emitting may fail and changes a state that the caller owns, so scheduling runs in a state monad with
errors, whose state survives a failure.
-/

namespace Shading

/-- What scheduling needs to know about the caller. -/
structure Emission (ε σ : Type) where
  /-- The nodes that must be done before a node is emitted. -/
  sources : NodeId → List NodeId
  /-- Whether a node is done. -/
  isDone : σ → NodeId → Bool
  /-- Emits a node and marks it done. -/
  emit : NodeId → EStateM ε σ Unit
  /-- The error for nodes that can never be emitted. -/
  stuck : List NodeId → ε

namespace Emission

variable {ε σ : Type}

/-- Whether everything that a node needs is done. -/
def isReady (w : Emission ε σ) (s : σ) (id : NodeId) : Bool := (w.sources id).all (w.isDone s)

/-- What one pass leaves behind. -/
structure Pass where
  /-- The nodes that were not ready. -/
  pending : List NodeId
  /-- Whether some node was emitted. -/
  progressed : Bool

def pass (w : Emission ε σ) : List NodeId → EStateM ε σ Pass
  | [] => return ⟨[], false⟩
  | id :: rest => do
    let s ← get
    if w.isDone s id then w.pass rest
    else if w.isReady s id then
      w.emit id
      let p ← w.pass rest
      return { p with progressed := true }
    else
      let p ← w.pass rest
      return { p with pending := id :: p.pending }

/-- Emits nodes in passes; counts the passes, of which `passes` have been made before. -/
def run (w : Emission ε σ) (nodes : List NodeId) (passes : Nat) : EStateM ε σ Nat := do
  let p ← w.pass nodes
  if p.pending.isEmpty then return passes + 1
  else if h : p.progressed ∧ p.pending.length < nodes.length then w.run p.pending (passes + 1)
  else throw (w.stuck p.pending)
termination_by nodes.length
decreasing_by exact h.2

/-- Emits a set of nodes; returns the number of passes. -/
def schedule (w : Emission ε σ) (nodes : NodeSet) : EStateM ε σ Nat := w.run nodes.toList 0

end Emission

end Shading
