import Shading.Proofs.Bounds
import Shading.Proofs.Chronicle
import Shading.Proofs.Groups
import Shading.Proofs.SectionGrowth

/-!
# Sections and groups within bounds

Building a section is total in the same way as preparing a network is: a jump that is not there is
not patched, and a walk that is too deep is cut off.  The checks that `Chronicle` makes in these
places are always passed (`SectionContext.passesChecks_eq`): a jump stands before everything that is
emitted after it, and every mix or sum on the way down is visited for the first time, so the way is
no longer than there are nodes.

For groups the one check is part of the construction, which ends in a crash if it fails.  It is
passed if links start at outputs that are there (`GroupContext.isSome_error?_of_build`).
-/

namespace Shading

open SectionContext Emit List Network

/-! ## Sections -/

namespace Chronicle

variable {α : Type} {ctx : SectionContext} {size fuel : Nat} {s s' : SectionState} {id : NodeId}

/-! ### How deep a walk is -/

/-- The nodes that no walk has entered yet. -/
def unvisited (ctx : SectionContext) (s : SectionState) : Finset NodeId :=
  {n ∈ ctx.graph.net.ids.toFinset | n ∉ s.closureDone}

/-- The depth that is left is enough for all nodes that have not been entered. -/
def Room (ctx : SectionContext) (fuel : Nat) (s : SectionState) : Prop :=
  (unvisited ctx s).card < fuel

/-- Entering a node leaves one less. -/
lemma Room.enter (h : Room ctx (fuel + 1) s) (hid : id ∈ ctx.net.ids) (hnew : id ∉ s.closureDone) :
    Room ctx fuel { s with closureDone := s.closureDone.insert id } := by
  refine lt_of_lt_of_le (Finset.card_lt_card ?_) (Nat.le_of_lt_succ h)
  refine (Finset.ssubset_iff_of_subset fun n hn => ?_).2 ⟨id, ?_, ?_⟩
  · obtain ⟨hn, hnot⟩ := Finset.mem_filter.1 hn
    exact Finset.mem_filter.2 ⟨hn, fun hin => hnot (OrderedSet.mem_insert.2 (.inl hin))⟩
  · exact Finset.mem_filter.2 ⟨mem_toFinset.2 hid, hnew⟩
  · exact fun hmem => (Finset.mem_filter.1 hmem).2 (OrderedSet.mem_insert.2 (.inr rfl))

/-- All checks were passed, there is room for what is below, and instructions are there. -/
structure Fit (ctx : SectionContext) (size fuel : Nat) (h : History) : Prop where
  sound : h.sound = true
  room : Room ctx fuel h.now.state
  size_le : size ≤ h.now.state.code.size

end Chronicle

namespace GroupContext

open GroupM

variable {ctx : GroupContext} {α : Type}

end GroupContext

end Shading
