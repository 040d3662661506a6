import Shading.Graph.Finalize
import Shading.Proofs.Folding

/-!
# Passing weights on

Handing out weights changes a network in a few ways only: nodes are added that split or sum weights,
outputs that carry weights are linked to inputs that take them, and such inputs are unlinked or set
to constants.  A relation between networks that holds along each of these changes holds along the
whole pass (`Conveys.distributeFrom`).

In any network whose vacated numbers are free (`Spaced`) a new node takes no other's place, so the
passes of the preparation lose no node but those they prune (`Extends`).
-/

namespace Shading.Network

open List

/-- Passing weights on moves a network along a relation.  What carries weights and which inputs take
them is for the relation to say, and it does not change; a network is related to itself if it has
the properties that the changes rely on. -/
structure Conveys (R : Network → Network → Prop) (C : Network → Weight → Prop)
    (L : Network → NodeId × Nat → Prop) : Prop where
  refl {net net'} : R net net' → R net' net'
  trans {net net' net''} : R net net' → R net' net'' → R net net''
  carries {net net' weight} : R net net' → C net weight → C net' weight
  takes {net net' b} : R net net' → L net b → L net' b
  one {net} : C net none
  source {net} : R net net → ∀ id input, C net (net.inputLink? id input)
  weightIndex? {net id node volume input} : R net net → net.node? id = some node →
    node.weightIndex? volume = some input → L net (id, input)
  setValue {net} : R net net → ∀ id input value, R net (net.setValue id input value)
  unlink {net id input} : R net net → L net (id, input) → R net (net.unlink id input)
  link {net a id input} : R net net → C net (some a) → L net (id, input) →
    R net (net.link a id input)
  addNode {net k} : R net net → k = .mixClosureWeight ∨ k = .math .add false →
    R net (net.addNode (.ofKind k)).2 ∧
      ∀ i < 2, L (net.addNode (.ofKind k)).2 ((net.addNode (.ofKind k)).1, i) ∧
        C (net.addNode (.ofKind k)).2 (some ((net.addNode (.ofKind k)).1, i))

namespace Conveys

variable {R : Network → Network → Prop} {C : Network → Weight → Prop}
  {L : Network → NodeId × Nat → Prop} {net : Network} {weight : Weight} {id : NodeId} {input : Nat}
  {volume : Bool} (h : Conveys R C L)
include h

lemma feedWeight (hr : R net net) (hl : L net (id, input)) (hw : C net weight)
    (constant : Float32) : R net (net.feedWeight id input weight constant) := by
  cases weight with
  | none => exact h.setValue hr ..
  | some a => exact h.link hr hw hl

/-- Splitting a weight adds one node, and both parts come from it. -/
lemma splitWeight (hr : R net net) (hw : C net weight) (id : NodeId) (node : Node) :
    let split := net.splitWeight id node weight
    R net split.1 ∧ C split.1 split.2.1 ∧ C split.1 split.2.2 := by
  intro split
  cases hfac : node.inputIndex? "Fac" with
  | none =>
    have hsplit : split = (net, weight, weight) := by simp [split, Network.splitWeight, hfac]
    rw [hsplit]
    exact ⟨hr, hw, hw⟩
  | some factor =>
    obtain ⟨hadd, hnew⟩ := h.addNode hr (.inl rfl)
    set mix := (net.addNode (.ofKind .mixClosureWeight)).1
    set net₁ := (net.addNode (.ofKind .mixClosureWeight)).2
    have hfeed : R net₁ (net₁.feedWeight mix 1 (net.inputLink? id factor) (node.float "Fac")) :=
      h.feedWeight (h.refl hadd) (hnew 1 (by decide)).1 (h.carries hadd (h.source hr ..)) _
    set net₂ := net₁.feedWeight mix 1 (net.inputLink? id factor) (node.float "Fac")
    have hlast : R net₂ (weight.elim net₂ fun a => net₂.link a mix 0) := by
      cases weight with
      | none => exact h.refl hfeed
      | some a =>
        exact h.link (h.refl hfeed) (h.carries (h.trans hadd hfeed) hw)
          (h.takes hfeed (hnew 0 (by decide)).1)
    have hsplit : split = (weight.elim net₂ fun a => net₂.link a mix 0,
        some (mix, 0), some (mix, 1)) := by
      simp only [split, Network.splitWeight, hfac]
      cases weight <;> rfl
    have hend := h.trans hfeed hlast
    rw [hsplit]
    exact ⟨h.trans hadd hend, h.carries hend (hnew 0 (by decide)).2,
      h.carries hend (hnew 1 (by decide)).2⟩

lemma addWeight (hr : R net net) (hl : L net (id, input)) (hw : C net weight) (node : Node) :
    R net (net.addWeight id node input weight) := by
  unfold Network.addWeight
  dsimp only
  split
  · obtain ⟨hadd, hnew⟩ := h.addNode hr (.inr rfl)
    set sum := (net.addNode (.ofKind (.math .add false))).1
    set net₁ := (net.addNode (.ofKind (.math .add false))).2
    set held := ((node.inputs[input]?).bind fun i => i.value.float?).getD 0
    have hfirst : R net₁ (net₁.feedWeight sum 0 (net.inputLink? id input) held) :=
      h.feedWeight (h.refl hadd) (hnew 0 (by decide)).1 (h.carries hadd (h.source hr ..)) _
    set net₂ := net₁.feedWeight sum 0 (net.inputLink? id input) held
    have hsecond : R net₂ (net₂.feedWeight sum 1 weight 1) :=
      h.feedWeight (h.refl hfirst) (h.takes hfirst (hnew 1 (by decide)).1)
        (h.carries (h.trans hadd hfirst) hw) _
    set net₃ := net₂.feedWeight sum 1 weight 1
    have hfed := h.trans hfirst hsecond
    have hcut :
        R net₃ (if (net.inputLink? id input).isSome then net₃.unlink id input else net₃) := by
      split
      · exact h.unlink (h.refl hfed) (h.takes (h.trans hadd hfed) hl)
      · exact h.refl hfed
    have hend := h.trans hfed hcut
    have hall := h.trans hadd hend
    exact h.trans hall (h.link (h.refl hall) (h.carries hend (hnew 0 (by decide)).2)
      (h.takes hall hl))
  · exact h.feedWeight hr hl hw _

lemma distribute (fuel : Nat) (hr : R net net) (hw : C net weight) (id : NodeId) :
    R net (distribute volume fuel net id weight) := by
  induction fuel generalizing net id weight with
  | zero => exact hr
  | succ fuel ih =>
    unfold distribute
    cases hn : net.node? id with
    | none => exact hr
    | some node =>
      dsimp only
      split
      · -- a mix or a sum: first its own node, then one side, then the other
        obtain ⟨hsplit, hw₁, hw₂⟩ : _ ∧ C _ (net.splitWeight id node weight).2.1 ∧
            C _ (net.splitWeight id node weight).2.2 := h.splitWeight hr hw id node
        cases (node.inputIndex? "Closure1").bind (net.inputLink? id) with
        | none =>
          cases (node.inputIndex? "Closure2").bind (net.inputLink? id) with
          | none => exact hsplit
          | some second => exact h.trans hsplit (ih (h.refl hsplit) hw₂ second.1)
        | some first =>
          have hfirst := ih (h.refl hsplit) hw₁ first.1
          have hboth := h.trans hsplit hfirst
          cases (node.inputIndex? "Closure2").bind (net.inputLink? id) with
          | none => exact hboth
          | some second =>
            exact h.trans hboth (ih (h.refl hboth) (h.carries hfirst hw₂) second.1)
      · split
        · exact h.addWeight hr (h.weightIndex? hr hn ‹_›) hw node
        · exact hr

lemma distributeFrom (hr : R net net) (output : NodeId) (terminal : String) (volume : Bool) :
    R net (net.distributeFrom output terminal volume) := by
  unfold Network.distributeFrom
  split
  · exact h.distribute _ hr h.one _
  · exact hr

/-- What follows pruning, if the normal from the displacement is no exception. -/
lemma finalize {output : NodeId} {options : FinalizeOptions}
    (hr : R (net.foldConstants.removeUnreachable output)
      (net.foldConstants.removeUnreachable output))
    (hbump : ∀ useObjectSpace, R (net.foldConstants.removeUnreachable output)
      ((net.foldConstants.removeUnreachable output).bumpFromDisplacement output useObjectSpace)) :
    R (net.foldConstants.removeUnreachable output) (net.finalize output options) := by
  set pruned := net.foldConstants.removeUnreachable output
  have hb : R pruned (if options.doBump then
      pruned.bumpFromDisplacement output options.bumpInObjectSpace else pruned) := by
    split
    · exact hbump _
    · exact hr
  have hs := h.trans hb (h.distributeFrom (h.refl hb) output "Surface" false)
  exact h.trans hs (h.distributeFrom (h.refl hs) output "Volume" true)

end Conveys

/-! ## Networks that lose no node -/

variable {net net' net'' : Network} {output id n : NodeId} {f : Node.Form} {k : NodeKind}

/-- Every node is still there with the same sockets, those that came have the sockets of their kinds
and are no output nodes, and vacated numbers are free. -/
structure Extends (net net' : Network) : Prop where
  spaced : net'.Spaced
  form : ∀ {n f}, net.form? n = some f → net'.form? n = some f
  origin : ∀ {n f}, net'.form? n = some f →
    net.form? n = some f ∨ ∃ k : NodeKind, k ≠ .output ∧ f = (Node.ofKind k).form

lemma Spaced.refl (h : net.Spaced) : net.Extends net := ⟨h, fun hf => hf, .inl⟩

lemma Extends.trans (h : net.Extends net') (h' : net'.Extends net'') : net.Extends net'' := by
  refine ⟨h'.spaced, fun hf => h'.form (h.form hf), fun hf => ?_⟩
  obtain hf | hnew := h'.origin hf
  · exact h.origin hf
  · exact .inr hnew

lemma Extends.kind? (h : net.Extends net') (hk : net.kind? id = some k) : net'.kind? id = some k :=
  kind?_of_form? h.form hk

lemma Extends.form?_of_output (h : net.Extends net') (hf : net'.form? n = some f)
    (hk : f.kind = .output) : net.form? n = some f := by
  obtain hf | ⟨k, hne, rfl⟩ := h.origin hf
  · exact hf
  · exact absurd hk hne

lemma nodes_unlink (net : Network) (id : NodeId) (input : Nat) :
    (net.unlink id input).nodes = net.nodes ∧ (net.unlink id input).vacant = net.vacant := by
  unfold unlink
  split <;> exact ⟨rfl, rfl⟩

lemma nodes_link (net : Network) (source : NodeId × Nat) (target : NodeId) (input : Nat) :
    (net.link source target input).nodes = net.nodes ∧
      (net.link source target input).vacant = net.vacant := by
  unfold link addLink
  split <;> exact nodes_unlink ..

lemma Spaced.foldl {α β : Type} (toNet : β → Network) {f : β → α → β} {l : List α} {b : β}
    (h : (toNet b).Spaced)
    (hf : ∀ b, ∀ a ∈ l, (toNet b).Spaced → (toNet b).Extends (toNet (f b a))) :
    (toNet b).Extends (toNet (l.foldl f b)) :=
  foldlRecOn l f (motive := fun c => (toNet b).Extends (toNet c)) h.refl fun c hc a ha =>
    hc.trans (hf c a ha hc.spaced)

namespace Spaced

variable (h : net.Spaced)
include h

/-- Only links differ. -/
lemma extends_of_nodes (hn : net'.nodes = net.nodes)
    (hv : net'.vacant = net.vacant) : net.Extends net' := by
  have hform : ∀ n, net'.form? n = net.form? n := fun n => form?_congr (by rw [node?, node?, hn])
  exact ⟨h.of_nodes hn hv, fun hf => (hform _).trans hf, fun hf => .inl ((hform _).symm.trans hf)⟩

lemma setValue (id : NodeId) (input : Nat) (value : SocketValue) :
    net.Extends (net.setValue id input value) :=
  ⟨h.modifyNode .., fun hf => (form?_setValue ..).trans hf,
    fun hf => .inl ((form?_setValue ..).symm.trans hf)⟩

lemma extends_addNode (hk : k ≠ .output) :
    net.Extends (net.addNode (.ofKind k)).2 := by
  refine ⟨h.addNode _, fun hf => h.form?_addNode _ hf, fun {n f} hf => ?_⟩
  rw [form?, h.node?_addNode] at hf
  split at hf
  · cases hf
    exact .inr ⟨k, hk, rfl⟩
  · exact .inl hf

lemma unlink (id : NodeId) (input : Nat) :
    net.Extends (net.unlink id input) := h.extends_of_nodes (nodes_unlink ..).1 (nodes_unlink ..).2

lemma link (source : NodeId × Nat) (target : NodeId) (input : Nat) :
    net.Extends (net.link source target input) :=
  h.extends_of_nodes (nodes_link ..).1 (nodes_link ..).2

lemma removeOutgoing (id : NodeId) :
    net.Extends (net.removeOutgoing id) :=
  h.extends_of_nodes (nodes_foldl_removeLink ..).1 (nodes_foldl_removeLink ..).2

/-! ## Folding -/

lemma foldNode (id : NodeId) : net.Extends (net.foldNode id).1 := by
  refine foldNode_induction h.refl (fun {_ b _ _ v} hcur _ _ _ => ?_) (h.removeOutgoing id)
    fun hcur _ _ _ _ => hcur.trans (hcur.spaced.link ..)
  have hset := hcur.trans (hcur.spaced.setValue b.1 b.2 v)
  exact hset.trans (hset.spaced.unlink ..)

lemma foldRound : net.Extends net.foldRound.1 :=
  foldRound_induction (fun _ id hcur => hcur.trans (hcur.spaced.foldNode id)) h.refl

lemma foldRounds (fuel : Nat) : net.Extends (foldRounds fuel net) :=
  foldRounds_induction (fun _ id hcur => hcur.trans (hcur.spaced.foldNode id)) fuel h.refl

/-! ## Pruning -/

lemma foldl_removeNode {ids : List NodeId} (hnd : ids.Nodup)
    (hex : ∀ id ∈ ids, ∃ node, net.node? id = some node) :
    (ids.foldl Network.removeNode net).Spaced := by
  induction ids generalizing net with
  | nil => exact h
  | cons id ids ih =>
    obtain ⟨node, hnode⟩ := hex id mem_cons_self
    exact ih (h.removeNode hnode) (nodup_cons.1 hnd).2 (exists_node?_removeNode hnd hex)

/-- Pruning keeps what leads to the output node, which leads to itself. -/
lemma removeUnreachable (output : NodeId) :
    (net.removeUnreachable output).Spaced ∧ ∀ n, (net.removeUnreachable output).node? n =
      if n ∈ net.kept output then net.node? n else none := by
  refine ⟨h.foldl_removeNode ?_ ?_, node?_removeUnreachable net output⟩
  · exact net.nodup_ids.filter _
  · exact fun id hid => mem_ids.1 (List.mem_of_mem_filter hid)

/-- Whether the output node is there does not change. -/
lemma form?_removeUnreachable :
    (net.removeUnreachable output).form? output = net.form? output := by
  refine form?_congr (((h.removeUnreachable output).2 output).trans ?_)
  cases hnode : net.node? output with
  | none => exact ite_self _
  | some node => rw [if_pos (mem_kept_output hnode)]

/-! ## The normal and the weights -/

lemma bumpFromDisplacement (output : NodeId) (useObjectSpace : Bool) :
    net.Extends (net.bumpFromDisplacement output useObjectSpace) := by
  unfold Network.bumpFromDisplacement
  split
  · split
    · have hadd := h.extends_addNode (k := .bumpFromDisplacement useObjectSpace) NodeKind.noConfusion
      exact (hadd.trans (hadd.spaced.link ..)).trans ((hadd.spaced.link ..).spaced.link ..)
    · exact h.refl
  · exact h.refl

omit h in
lemma conveys_extends : Conveys Extends (fun _ _ => True) fun _ _ => True where
  refl h := h.spaced.refl
  trans h h' := h.trans h'
  carries _ _ := trivial
  takes _ _ := trivial
  one := trivial
  source _ _ _ := trivial
  weightIndex? _ _ _ := trivial
  setValue h := h.spaced.setValue
  unlink h _ := h.spaced.unlink ..
  link h _ _ := h.spaced.link ..
  addNode h hk := by
    refine ⟨h.spaced.extends_addNode ?_, fun _ _ => ⟨trivial, trivial⟩⟩
    obtain rfl | rfl := hk <;> exact NodeKind.noConfusion

lemma feedWeight (id : NodeId) (input : Nat) (weight : Weight)
    (constant : Float32) : net.Extends (net.feedWeight id input weight constant) :=
  conveys_extends.feedWeight h.refl trivial trivial constant

lemma splitWeight (id : NodeId) (node : Node) (weight : Weight) :
    net.Extends (net.splitWeight id node weight).1 :=
  (conveys_extends.splitWeight h.refl trivial id node).1

lemma distribute (volume : Bool) (fuel : Nat) (id : NodeId) (weight : Weight) :
    net.Extends (distribute volume fuel net id weight) :=
  conveys_extends.distribute fuel h.refl trivial id

/-- What follows pruning loses no node. -/
lemma finalize_extends (output : NodeId) (options : FinalizeOptions) :
    (net.foldConstants.removeUnreachable output).Extends (net.finalize output options) := by
  have hfold : net.Extends net.foldConstants := h.foldRounds _
  have hpruned := (hfold.spaced.removeUnreachable output).1
  exact conveys_extends.finalize hpruned.refl fun _ => hpruned.bumpFromDisplacement ..

/-- Preparation keeps the output node, and makes none. -/
lemma finalize (output : NodeId) (options : FinalizeOptions) :
    (net.finalize output options).Spaced ∧
      ((net.finalize output options).kind? output = some .output ↔
        net.kind? output = some .output) := by
  have hfold : net.Extends net.foldConstants := h.foldRounds _
  have hsame : (net.foldConstants.removeUnreachable output).form? output =
      net.foldConstants.form? output := hfold.spaced.form?_removeUnreachable
  have hrest := h.finalize_extends output options
  have key : ∀ {m m' : Network}, m.Extends m' →
      (m'.kind? output = some .output ↔ m.kind? output = some .output) := by
    intro m m' hext
    simp only [kind?_eq_form?, Option.map_eq_some_iff]
    exact ⟨fun ⟨f, hf, hk⟩ => ⟨f, hext.form?_of_output hf hk, hk⟩,
      fun ⟨f, hf, hk⟩ => ⟨f, hext.form hf, hk⟩⟩
  refine ⟨hrest.spaced, (key hrest).trans ?_⟩
  rw [← key hfold, kind?_eq_form?, kind?_eq_form?, hsame]

/-- A node of a prepared network was there before, with the same sockets, or has the sockets of its
kind. -/
lemma origin_finalize {output : NodeId} {options : FinalizeOptions}
    (hf : (net.finalize output options).form? n = some f) :
    net.form? n = some f ∨ ∃ k, f = (Node.ofKind k).form := by
  have hfold : net.Extends net.foldConstants := h.foldRounds _
  obtain hf | ⟨k, _, rfl⟩ := (h.finalize_extends output options).origin hf
  · obtain ⟨node, hn, rfl⟩ := exists_node?_of_form? hf
    rw [(hfold.spaced.removeUnreachable output).2] at hn
    split at hn
    · exact (hfold.origin (form?_of_node? hn)).imp_right fun ⟨k, _, hk⟩ => ⟨k, hk⟩
    · cases hn
  · exact .inr ⟨k, rfl⟩

end Spaced

end Shading.Network
