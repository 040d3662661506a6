import Mathlib.Tactic
import Shading.Proofs.StepRelations

/-!
# Steps of the construction and what they ensure

`Emit.Ensures P m Q` says of a step `m`: if `P` holds before it, then it succeeds and `Q` holds of
its result and of the state after it, or it runs out of slots.  No other failure is allowed, so a
step that looks something up has to be given that it is there.  The rules follow the ways in which
steps are put together; what the single steps do to a section is in the modules that use them.
-/

namespace Shading

/-- The failure of a section that needs more slots than there are. -/
def BytecodeError.IsOverflow (e : BytecodeError) : Prop :=
  ∃ requested live, e = .stack (.overflow requested live)

namespace Emit

variable {α β : Type} {I : List α → SectionState → Prop} {a : α}

/-- From a state with `P` the step leads to a result and a state with `Q`, or runs out of slots. -/
abbrev Ensures (P : SectionState → Prop) (m : Emit α) (Q : α → SectionState → Prop) : Prop :=
  Triple P m Q fun e _ => e.IsOverflow

variable {P P' : SectionState → Prop} {Q : α → SectionState → Prop} {R : β → SectionState → Prop}
  {m : Emit α} {f : α → Emit β}

/-! ## Elementary steps -/

lemma ensures_ofGraph {x : Except GraphError α} (h : x = .ok a) :
    Ensures P (ofGraph x) fun b s => b = a ∧ P s := by
  subst h
  exact .pure fun s hs => ⟨rfl, hs⟩

lemma ensures_pack {x y z w : Nat} (hx : x ≤ 255) (hy : y ≤ 255) (hz : z ≤ 255) (hw : w ≤ 255) :
    Ensures P (pack x y z w) fun word s => Instruction.pack? x y z w = some word ∧ P s := by
  unfold pack
  rw [Instruction.pack?, if_pos ⟨hx, hy, hz, hw⟩]
  exact .pure fun s hs => ⟨rfl, hs⟩

/-! ## Appending -/

/-- A step that appends words of a given form and may number attributes, and does nothing else. -/
def Appends (m : Emit PUnit) (form : List Instruction → Prop) : Prop :=
  ∀ s : SectionState, ∃ words code ids, form words ∧ code.toList = s.code.toList ++ words ∧
    m s = .ok ⟨⟩ { s with code, ids }

namespace Appends

variable {m m' : Emit PUnit} {form : List Instruction → Prop}

lemma push (i : Instruction) : Appends (push i) (· = [i]) := fun s =>
  ⟨[i], s.code.push i, s.ids, rfl, Array.toList_push, rfl⟩

lemma nil : Appends (Pure.pure ⟨⟩) (· = []) := fun s =>
  ⟨[], s.code, s.ids, rfl, (List.append_nil _).symm, rfl⟩

lemma bind {words words' : List Instruction} (h : Appends m (· = words))
    (h' : Appends m' (· = words')) : Appends (m >>= fun _ => m') (· = words ++ words') := by
  intro s
  obtain ⟨_, code, ids, rfl, hcode, hm⟩ := h s
  obtain ⟨_, code', ids', rfl, hcode', hm'⟩ := h' { s with code, ids }
  refine ⟨_, code', ids', rfl, by rw [hcode', hcode, List.append_assoc], ?_⟩
  have hbind : (m >>= fun _ => m') s = EStateM.bind m (fun _ => m') s := rfl
  rw [hbind, EStateM.bind, hm]
  exact hm'

lemma mono {form' : List Instruction → Prop} (h : Appends m form)
    (hf : ∀ words, form words → form' words) : Appends m form' := by
  intro s
  obtain ⟨words, code, ids, hw, hrest⟩ := h s
  exact ⟨words, code, ids, hf words hw, hrest⟩

lemma ensures (h : Appends m form) :
    Ensures P m fun _ s' => ∃ s words code ids, P s ∧ form words ∧ s' = { s with code, ids } ∧
      code.toList = s.code.toList ++ words := by
  refine .of_eq fun s hs => ?_
  obtain ⟨words, code, ids, hform, hcode, hm⟩ := h s
  exact ⟨_, _, hm, s, words, code, ids, hs, hform, rfl, hcode⟩

/-- A loop that appends one word for each of some things. -/
lemma forIn {β : Type} (f : β → Instruction) (l : List β) :
    Appends (ForIn.forIn l PUnit.unit fun b _ => do
      Emit.push (f b)
      Pure.pure (ForInStep.yield PUnit.unit)) (· = l.map f) := by
  induction l with
  | nil => exact nil
  | cons b l ih =>
    rw [List.forIn_cons, List.map_cons, ← List.singleton_append]
    exact (push (f b)).bind ih

end Appends

end Emit

end Shading
