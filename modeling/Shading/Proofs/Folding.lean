import Shading.Graph.Finalize
import Shading.Proofs.WellFormed

/-!
# What folding and pruning do to a network

Folding constants comes down to three changes of a network: an input takes a constant in place of
its link, the links out of a node go, and a link goes around a node.  `Trim` is the relation of
such changes, taken one after the other; folding is shown to stay within it, and what folding keeps
is then proved of `Trim` alone.  Pruning removes exactly the nodes from which no path leads to the
output, with their links.

`Trim` is kept to inputs that satisfy a predicate `Q`.  With `Q` for "is no weight input" it says
that folding does not touch the weight of a closure.
-/

namespace Shading.Network

open List

variable {id : NodeId} {node : Node} {input : Nat} {P : Network → Prop}

variable {net cur net' : Network} {Q : NodeId × Nat → Prop} {rank : NodeId → Nat}

/-! ## Changes -/

/-- What folding can make of a network. -/
inductive Trim (Q : NodeId × Nat → Prop) (rank : NodeId → Nat) (net : Network) : Network → Prop
  | refl : Trim Q rank net net
  | fold {cur : Network} {id : NodeId} {input : Nat} {value : SocketValue} (t : Trim Q rank net cur)
      (hq : Q (id, input)) (hv : ∀ ty, cur.inputType? (id, input) = some ty → value.fits ty = true) :
      Trim Q rank net ((cur.setValue id input value).unlink id input)
  | cut {cur : Network} (t : Trim Q rank net cur) (id : NodeId) :
      Trim Q rank net (cur.removeOutgoing id)
  | lead {cur : Network} {source : NodeId × Nat} {target : NodeId} {input : Nat}
      (t : Trim Q rank net cur) (hq : Q (target, input)) (hj : cur.Joins source (target, input))
      (hr : rank source.1 < rank target) : Trim Q rank net (cur.link source target input)

namespace Trim

lemma trans (t : Trim Q rank net cur) (u : Trim Q rank cur net') : Trim Q rank net net' := by
  induction u with
  | refl => exact t
  | fold _ hq hv ih => exact .fold ih hq hv
  | cut _ id ih => exact .cut ih id
  | lead _ hq hj hr ih => exact .lead ih hq hj hr

lemma validBy (h : net.ValidBy rank) (t : Trim Q rank net cur) : cur.ValidBy rank := by
  induction t with
  | refl => exact h
  | fold _ _ hv ih => exact (ih.setValue hv).unlink _ _
  | cut _ id ih => exact ih.removeOutgoing id
  | lead _ _ hj hr ih => exact ih.link hj hr

/-- Links into other inputs do not appear. -/
lemma linked (h : net.ValidBy rank) (hQ : ∀ {a b}, net.Feeds a b → Q b) (t : Trim Q rank net cur)
    {a b : NodeId × Nat} (hab : cur.Feeds a b) : Q b := by
  induction t with
  | refl => exact hQ hab
  | fold t _ hv ih =>
    have hv := (t.validBy h).setValue hv
    exact ih (hv.tidy.feeds_unlink.1 hab).1
  | cut t id ih =>
    obtain ⟨_, _, hf⟩ := (t.validBy h).tidy.removeOutgoing_spec id
    exact ih ((hf a b).1 hab).1
  | lead t hq hj _ ih =>
    obtain ⟨_, rfl⟩ | ⟨hab, _⟩ := ((t.validBy h).tidy.feeds_link hj.fits_output hj.fits_input).1 hab
    · exact hq
    · exact ih hab

lemma kind? (h : net.ValidBy rank) (t : Trim Q rank net cur) (n : NodeId) :
    cur.kind? n = net.kind? n := by
  induction t with
  | refl => rfl
  | fold _ _ _ ih => rw [kind?_unlink, kind?_setValue, ih]
  | cut t id ih =>
    obtain ⟨_, hnode, _⟩ := (t.validBy h).tidy.removeOutgoing_spec id
    rw [kind?_congr (hnode n), ih]
  | lead _ _ _ _ ih => rw [kind?_link, ih]

/-- A node keeps what its other inputs hold. -/
lemma node? (h : net.ValidBy rank) (t : Trim Q rank net cur) (hn : cur.node? id = some node) :
    ∃ old, net.node? id = some old ∧ ∀ i, ¬ Q (id, i) → node.inputs[i]? = old.inputs[i]? := by
  induction t generalizing node with
  | refl => exact ⟨node, hn, fun _ _ => rfl⟩
  | @fold cur target input value t hq hv ih =>
    rw [node?_unlink, node?_setValue] at hn
    split at hn
    · rename_i e
      subst e
      obtain ⟨mid, hmid, rfl⟩ := Option.map_eq_some_iff.1 hn
      obtain ⟨old, hold, hi⟩ := ih hmid
      refine ⟨old, hold, fun i hqi => ?_⟩
      have hne : input ≠ i := fun e => hqi (e ▸ hq)
      rw [← hi i hqi, Node.setValue]
      simp [hne]
    · exact ih hn
  | cut t id ih =>
    obtain ⟨_, hnode, _⟩ := (t.validBy h).tidy.removeOutgoing_spec id
    exact ih (hnode _ ▸ hn)
  | lead t _ _ _ ih => exact ih ((node?_link ..) ▸ hn)

end Trim

/-! ## Folding -/

lemma fits_of_convertConstant {value v : SocketValue} {ty : SocketType}
    (h : convertConstant value ty = some v) : v.fits ty = true := by
  cases value <;> cases ty <;> cases h <;> rfl

/-- The position of a mix through which folding leads. -/
lemma foldOf_eq_bypass (h : cur.foldOf id node = .bypass input) :
    node.kind = .mixClosure ∧ (input = 1 ∨ input = 2) := by
  unfold foldOf at h
  dsimp only at h
  split at h <;> try (split at h <;> cases h)
  all_goals try cases h
  rename_i hk
  refine ⟨hk, ?_⟩
  split at h
  · cases h
  split at h
  · cases h
    exact .inl rfl
  split at h
  · cases h
    exact .inr rfl
  · cases h

/-- Going around a mix joins closures to closures. -/
lemma Valid.joins_bypass (h : cur.Valid) (hk : cur.kind? id = some .mixClosure)
    (hi : input = 1 ∨ input = 2) {source c : NodeId × Nat}
    (hs : cur.Feeds source (id, input)) (hc : cur.Feeds (id, 0) c) : cur.Joins source c := by
  obtain ⟨s, t, hs, ht, hst⟩ := h.joins hs
  obtain ⟨u, v, hu, hv, huv⟩ := h.joins hc
  have ht' : t = .closure := by
    rw [inputType?, hk] at ht
    obtain rfl | rfl := hi <;> exact (Option.some.inj ht).symm
  have hu' : u = .closure := by
    rw [outputType?, hk] at hu
    exact (Option.some.inj hu).symm
  subst ht' hu'
  rw [SocketType.linksTo_closure] at huv
  exact ⟨s, .closure, hs, huv ▸ hv, hst⟩

/-- All that folding one node can do to a network: inputs that the node feeds take a constant in place
of their links, the links out of the node go, and what a mix fed is linked to what feeds the mix. -/
lemma foldNode_induction (h : P net)
    (hfold : ∀ {cur b i value v}, P cur → net.Feeds (id, 0) b → cur.input? b.1 b.2 = some i →
      convertConstant value i.ty = some v → P ((cur.setValue b.1 b.2 v).unlink b.1 b.2))
    (hcut : P (net.removeOutgoing id))
    (hlead : ∀ {cur input a c}, P cur → net.kind? id = some .mixClosure → input = 1 ∨ input = 2 →
      net.Feeds a (id, input) → net.Feeds (id, 0) c → P (cur.link a c.1 c.2)) :
    P (net.foldNode id).1 := by
  unfold foldNode
  cases hn : net.node? id with
  | none => exact h
  | some node =>
    dsimp only
    cases hf : net.foldOf id node with
    | keep => exact h
    | constant value =>
      refine foldlRecOn (motive := fun acc : Network × Nat => P acc.1) _ _ h fun acc hacc b hb => ?_
      unfold foldInto
      dsimp only
      split
      · obtain ⟨i, hi, hv⟩ := Option.bind_eq_some_iff.1 ‹_›
        exact hfold hacc (mem_outputLinks.1 hb) hi hv
      · exact hacc
    | discard => exact hcut
    | bypass input =>
      obtain ⟨hk, hi⟩ := foldOf_eq_bypass hf
      dsimp only [bypass]
      split
      · exact foldlRecOn _ _ hcut fun cur hcur c hc =>
          hlead hcur (hk ▸ kind?_of_node? hn) hi (feeds_of_inputLink? ‹_›) (mem_outputLinks.1 hc)
      · exact hcut

def roundStep (acc : Network × Nat) (id : NodeId) : Network × Nat :=
  ((acc.1.foldNode id).1, acc.2 + (acc.1.foldNode id).2)

lemma foldRound_eq : net.foldRound = net.ids.foldl roundStep (net, 0) := rfl

/-- What folding one node keeps, a round keeps. -/
lemma foldRound_induction (hstep : ∀ cur id, P cur → P (cur.foldNode id).1)
    (h : P net) : P net.foldRound.1 := by
  exact foldlRecOn (motive := fun acc : Network × Nat => P acc.1) _ _ h
    fun acc hacc id _ => hstep acc.1 id hacc

lemma foldRounds_induction (hstep : ∀ cur id, P cur → P (cur.foldNode id).1)
    (fuel : Nat) (h : P net) : P (foldRounds fuel net) := by
  induction fuel generalizing net with
  | zero => exact h
  | succ fuel ih =>
    have hround := foldRound_induction hstep h
    unfold foldRounds
    dsimp only
    split
    · exact hround
    · exact ih hround

section

variable (h : cur.ValidBy rank) (hQ : ∀ {a b}, cur.Feeds a b → Q b)
include h hQ

lemma foldNode_trim (id : NodeId) : Trim Q rank cur (cur.foldNode id).1 := by
  refine foldNode_induction .refl (fun {net b i value v} t hb hi hv => ?_) (.cut .refl id)
    fun {net input a c} t hk hin ha hc => ?_
  · refine .fold t (hQ hb) fun ty hty => ?_
    obtain ⟨node, hn, hi⟩ := Option.bind_eq_some_iff.1 hi
    rw [Valid.inputType?_eq ⟨rank, t.validBy h⟩ hn, hi] at hty
    cases hty
    exact fits_of_convertConstant hv
  · have hup := h.ranked ha
    have hdown := h.ranked hc
    refine .lead t (hQ hc) ?_ (hup.trans hdown)
    rw [Joins.congr (t.kind? h _) (t.kind? h _)]
    exact Valid.joins_bypass ⟨rank, h⟩ hk hin ha hc

lemma Trim.foldNode (t : Trim Q rank cur net) (id : NodeId) : Trim Q rank cur (net.foldNode id).1 :=
  t.trans (foldNode_trim (t.validBy h) (t.linked h hQ) id)

lemma foldRound_trim : Trim Q rank cur cur.foldRound.1 :=
  foldRound_induction (fun _ id t => t.foldNode h hQ id) .refl

theorem foldConstants_trim : Trim Q rank cur cur.foldConstants :=
  foldRounds_induction (fun _ id t => t.foldNode h hQ id) _ .refl

end

/-! ## Pruning -/

lemma nodup_ids (net : Network) : net.ids.Nodup := nodup_range.filter _

lemma Tidy.foldl_removeNode (h : net.Tidy) {ids : List NodeId} (hnd : ids.Nodup)
    (hex : ∀ id ∈ ids, ∃ node, net.node? id = some node) :
    (ids.foldl removeNode net).Tidy ∧
      ∀ a b, (ids.foldl removeNode net).Feeds a b ↔ net.Feeds a b ∧ a.1 ∉ ids ∧ b.1 ∉ ids := by
  induction ids generalizing net with
  | nil => exact ⟨h, by simp⟩
  | cons id ids ih =>
    obtain ⟨node, hnode⟩ := hex id mem_cons_self
    obtain ⟨ht, _, hf⟩ := h.removeNode_spec hnode
    obtain ⟨ht, hfeeds⟩ := ih ht (nodup_cons.1 hnd).2 (exists_node?_removeNode hnd hex)
    refine ⟨ht, fun a b => ?_⟩
    rw [foldl_cons, hfeeds, hf]
    simp only [mem_cons]
    tauto

def kept (net : Network) (output : NodeId) : List NodeId :=
  reachable net.predecessors (range net.nodes.size) [output]

lemma mem_kept_output {output : NodeId} (hout : net.node? output = some node) :
    output ∈ net.kept output := by
  have hlt : output ∈ range net.nodes.size := mem_range.2 (node?_eq_some_lt hout)
  exact (mem_reachable nodup_range).2 ⟨output, mem_cons_self, .here hlt⟩

lemma node?_removeUnreachable (net : Network) (output n : NodeId) :
    (net.removeUnreachable output).node? n =
      if n ∈ net.kept output then net.node? n else none := by
  have hremoved : (net.removeUnreachable output).node? n =
      if n ∈ net.ids.filter (fun id => !(net.kept output).contains id) then none
      else net.node? n := node?_foldl_removeNode _ net n
  rw [hremoved]
  cases hnode : net.node? n with
  | none => simp
  | some node =>
    have hid := mem_ids.2 ⟨node, hnode⟩
    by_cases hk : n ∈ net.kept output <;> simp [hid]

theorem Wired.removeUnreachable_spec {N : Node → Prop}
    {E : Network → NodeId × Nat → NodeId × Nat → Prop} [Wiring E] (h : net.Wired N E)
    (output : NodeId) :
    (net.removeUnreachable output).Wired N E ∧
      (∀ n, (net.removeUnreachable output).node? n =
        if n ∈ net.kept output then net.node? n else none) ∧
      ∀ a b, (net.removeUnreachable output).Feeds a b ↔
        net.Feeds a b ∧ a.1 ∈ net.kept output ∧ b.1 ∈ net.kept output := by
  have hn := node?_removeUnreachable net output
  obtain ⟨ht, hfeeds⟩ := h.tidy.foldl_removeNode
    (net.nodup_ids.filter fun id => !(net.kept output).contains id)
    fun id hid => Network.mem_ids.1 (mem_of_mem_filter hid)
  have hf : ∀ a b, (net.removeUnreachable output).Feeds a b ↔
      net.Feeds a b ∧ a.1 ∈ net.kept output ∧ b.1 ∈ net.kept output := by
    refine fun a b => (hfeeds a b).trans (and_congr_right fun hab => ?_)
    obtain ⟨ha, hb⟩ := h.mem_ids hab
    simp [ha, hb]
  refine ⟨h.of_feeds ht (fun {id node} hid => ?_) fun {a b} hab => ?_, hn, hf⟩
  · rw [hn] at hid
    split at hid
    · exact h.nodes hid
    · cases hid
  · obtain ⟨hab, ha, hb⟩ := (hf a b).1 hab
    exact ⟨hab, form?_congr (by rw [hn, if_pos ha]), form?_congr (by rw [hn, if_pos hb])⟩

end Shading.Network
