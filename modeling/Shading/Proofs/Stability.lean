import Shading.Proofs.Preparation

/-!
# Preparing what is prepared

Folding stops when a round changes nothing, or after a number of rounds that is fixed at the
start.  The number is large enough: every link counts one more than the rank of the node it comes
from (`slack`), a change of a link lowers the sum, and ranks need not be higher than there are nodes.
So folding leaves nothing to fold (`Folded`).  Pruning then takes nothing that decides whether a node
can be folded, and leaves nothing to prune.  A network that went through both is changed by neither
any more (`Valid.pruned_pruned`).
-/

namespace Shading.Network

open List

variable {net net' cur : Network} {rank : NodeId → Nat} {id target : NodeId} {P : NodeId → Prop}
  {a b source : NodeId × Nat}

/-! ## How far links can still move -/

/-- Every link leads to a node of higher rank. -/
def Ranked (rank : NodeId → Nat) (net : Network) : Prop :=
  ∀ l ∈ net.links, rank l.2.source < rank l.2.target

/-- Every link that leads to one of some nodes leads to a higher rank. -/
def Climbs (P : NodeId → Prop) (rank : NodeId → Nat) (net : Network) : Prop :=
  ∀ l ∈ net.links, P l.2.target → rank l.2.source < rank l.2.target

/-- The sum over some links of one more than the rank of their sources. -/
def slackOf (rank : NodeId → Nat) (links : List (Nat × Link)) : Nat :=
  (links.map fun l => rank l.2.source + 1).sum

def slack (rank : NodeId → Nat) (net : Network) : Nat := slackOf rank net.links

@[simp] lemma slackOf_cons (l : Nat × Link) (links : List (Nat × Link)) :
    slackOf rank (l :: links) = rank l.2.source + 1 + slackOf rank links := by
  rw [slackOf, map_cons, sum_cons, slackOf]

lemma slackOf_le_of_sublist (rank : NodeId → Nat) {l m : List (Nat × Link)} (h : l.Sublist m) :
    slackOf rank l ≤ slackOf rank m := (h.map _).sum_le_sum (by simp)

lemma slackOf_filter (rank : NodeId → Nat) (p : Nat × Link → Bool) (links : List (Nat × Link)) :
    slackOf rank (links.filter p) + slackOf rank (links.filter fun l => !p l) =
      slackOf rank links := by
  induction links with
  | nil => rfl
  | cons l links ih =>
    cases h : p l <;> simp only [filter_cons, h, Bool.not_true, Bool.not_false,
      Bool.false_eq_true, if_true, if_false, slackOf_cons, ← ih] <;> omega

lemma slackOf_outgoing (id : NodeId) :
    slackOf rank (net.outgoing id) = (net.outgoing id).length * (rank id + 1) := by
  rw [slackOf, sum_eq_card_nsmul _ (rank id + 1), length_map, smul_eq_mul]
  refine forall_mem_map.2 fun l hl => ?_
  rw [eq_of_beq (mem_filter.1 hl).2]

lemma ValidBy.rankedLinks (h : net.ValidBy rank) : net.Ranked rank :=
  fun l hl => h.ranked ⟨l, hl, rfl, rfl⟩

lemma Ranked.feeds (h : net.Ranked rank) (hab : net.Feeds a b) :
    rank a.1 < rank b.1 := by
  obtain ⟨l, hl, rfl, rfl⟩ := hab
  exact h l hl

lemma Ranked.climbs (h : net.Ranked rank) : net.Climbs P rank := fun l hl _ => h l hl

lemma Climbs.feeds (h : net.Climbs P rank) (hab : net.Feeds a b)
    (hb : P b.1) : rank a.1 < rank b.1 := by
  obtain ⟨l, hl, rfl, rfl⟩ := hab
  exact h l hl hb

lemma Climbs.of_sublist (h : net.Climbs P rank) (hs : net'.links.Sublist net.links) :
    net'.Climbs P rank := fun l hl => h l (hs.subset hl)

/-! ### Removing and adding links -/

lemma links_unlink_sublist (target : NodeId) (input : Nat) :
    (net.unlink target input).links.Sublist net.links := by
  unfold unlink
  split
  · exact filter_sublist
  · exact Sublist.refl _

lemma slack_unlink_lt {input : Nat} (h : net.Feeds source (target, input)) :
    (net.unlink target input).slack rank < net.slack rank := by
  obtain ⟨l, hl, _, hlt⟩ := h
  obtain ⟨m, hm⟩ : ∃ m, net.feed? target input = some m := by
    rw [← Option.isSome_iff_exists, feed?, find?_isSome]
    obtain ⟨rfl, rfl⟩ := Prod.mk.inj hlt
    exact ⟨l, hl, by simp⟩
  have hremoved : m ∈ net.links.filter fun l => !(l.1 != m.1) :=
    mem_filter.2 ⟨mem_of_find?_eq_some hm, by simp⟩
  have hle := slackOf_le_of_sublist rank (singleton_sublist.2 hremoved)
  have hsum := slackOf_filter rank (fun l => l.1 != m.1) net.links
  rw [slackOf_cons] at hle
  simp only [unlink, hm, slack, removeLink]
  omega

/-- Removing links by what they join. -/
lemma links_foldl_removeLink_sublist (p : Nat × Link → Bool) (net : Network) :
    ((net.links.filter p).foldl (fun net l => net.removeLink l.1) net).links.Sublist
      (net.links.filter fun l => !p l) := by
  rw [links_foldl_removeLink]
  have hall : ∀ l ∈ net.links.filter fun l => decide (l.1 ∉ (net.links.filter p).map Prod.fst),
      (!p l) = true := by
    intro l hl
    obtain ⟨hl, hnot⟩ := mem_filter.1 hl
    by_contra hs
    exact of_decide_eq_true hnot (mem_map_of_mem (mem_filter.2 ⟨hl, by simpa using hs⟩))
  rw [← filter_eq_self.2 hall]
  exact filter_sublist.filter _

lemma links_removeOutgoing_sublist (id : NodeId) :
    (net.removeOutgoing id).links.Sublist (net.links.filter fun l => !(l.2.source == id)) :=
  links_foldl_removeLink_sublist ..

/-- No link is left at a node that was removed. -/
lemma links_removeNode (net : Network) (id : NodeId) : ∀ l ∈ (net.removeNode id).links,
    l ∈ net.links ∧ l.2.source ≠ id ∧ l.2.target ≠ id := by
  intro l hl
  have hin := mem_filter.1 ((links_foldl_removeLink_sublist (fun l => l.2.target == id)
    (net.removeOutgoing id)).subset hl)
  have hout := mem_filter.1 ((links_removeOutgoing_sublist id).subset hin.1)
  exact ⟨hout.1, by simpa using hout.2, by simpa using hin.2⟩

lemma slack_removeOutgoing_add_le (net : Network) (rank : NodeId → Nat) (id : NodeId) :
    (net.removeOutgoing id).slack rank + (net.outgoing id).length * (rank id + 1) ≤
      net.slack rank := by
  have hle := slackOf_le_of_sublist rank (net.links_removeOutgoing_sublist id)
  have hsum := slackOf_filter rank (fun l => l.2.source == id) net.links
  rw [← slackOf_outgoing]
  simp only [slack, outgoing] at hle ⊢
  omega

lemma slack_addLink (link : Link) :
    (net.addLink link).slack rank = rank link.source + 1 + net.slack rank := by
  unfold addLink
  split <;> exact slackOf_cons ..

lemma slack_link_le (net : Network) (rank : NodeId → Nat) (source : NodeId × Nat) (target : NodeId)
    (input : Nat) :
    (net.link source target input).slack rank ≤ rank source.1 + 1 + net.slack rank := by
  rw [link, slack_addLink]
  exact Nat.add_le_add_left (slackOf_le_of_sublist rank (links_unlink_sublist ..)) _

lemma Climbs.link (h : net.Climbs P rank)
    (hr : P target → rank source.1 < rank target) (input : Nat) :
    (net.link source target input).Climbs P rank := by
  have hunlink := h.of_sublist (net.links_unlink_sublist target input)
  obtain ⟨k, hlinks, _⟩ := (net.unlink target input).addLink_spec
    ⟨source.1, UInt16.ofNat source.2, target, UInt16.ofNat input⟩
  intro l hl
  rw [Network.link, hlinks] at hl
  obtain rfl | hl := mem_cons.1 hl
  · exact hr
  · exact hunlink l hl

/-! ## Folding comes to an end -/

/-- What a part of folding makes of a network, with the number of links it changes: links still lead
upwards, and none moves for nothing. -/
structure Progress (P : NodeId → Prop) (rank : NodeId → Nat) (net : Network) (r : Network × Nat) :
    Prop where
  climbs : r.1.Climbs P rank
  le : r.1.slack rank ≤ net.slack rank
  lt : r.2 ≠ 0 → r.1.slack rank < net.slack rank

namespace Progress

lemma refl (h : net.Climbs P rank) : Progress P rank net (net, 0) :=
  ⟨h, le_rfl, fun hne => absurd rfl hne⟩

lemma trans {r r' : Network × Nat} (h : Progress P rank net r) (h' : Progress P rank r.1 r') :
    Progress P rank net (r'.1, r.2 + r'.2) := by
  refine ⟨h'.climbs, h'.le.trans h.le, fun hne => ?_⟩
  by_cases hr : r.2 = 0
  · exact (h'.lt (by simpa [hr] using hne)).trans_le h.le
  · exact h'.le.trans_lt (h.lt hr)

end Progress

/-- Constants take the place of links. -/
lemma propagateConstant_progress (h : net.Climbs P rank) (id : NodeId) (value : SocketValue) :
    Progress P rank net (net.propagateConstant id value) := by
  -- Inputs are still linked when the first of them takes the constant; after that anything will do.
  have hmoved : net.propagateConstant id value = (net, 0) ∨
      (net.propagateConstant id value).1.Climbs P rank ∧
        (net.propagateConstant id value).1.slack rank < net.slack rank := by
    refine foldlRecOn (motive := fun acc : Network × Nat =>
      acc = (net, 0) ∨ acc.1.Climbs P rank ∧ acc.1.slack rank < net.slack rank) _ _ (.inl rfl)
      fun acc hacc s hs => ?_
    unfold foldInto
    dsimp only
    split
    · rename_i v _
      have hsub : ((acc.1.setValue s.1 s.2 v).unlink s.1 s.2).links.Sublist acc.1.links :=
        links_unlink_sublist ..
      obtain rfl | ⟨hr, hlt⟩ := hacc
      · have hlinked : (net.setValue s.1 s.2 v).Feeds (id, 0) s := mem_outputLinks.1 hs
        exact .inr ⟨h.of_sublist hsub, slack_unlink_lt hlinked⟩
      · exact .inr ⟨hr.of_sublist hsub, (slackOf_le_of_sublist rank hsub).trans_lt hlt⟩
    · exact hacc
  obtain heq | ⟨hr, hlt⟩ := hmoved
  · rw [heq]
    exact .refl h
  · exact ⟨hr, hlt.le, fun _ => hlt⟩

lemma removeOutgoing_progress (h : net.Climbs P rank) (id : NodeId) :
    Progress P rank net (net.removeOutgoing id, (net.outgoing id).length) := by
  have hle := slack_removeOutgoing_add_le net rank id
  refine ⟨h.of_sublist ((links_removeOutgoing_sublist id).trans filter_sublist),
    (Nat.le_add_right ..).trans hle, fun hne => lt_of_lt_of_le ?_ hle⟩
  exact Nat.lt_add_of_pos_right (Nat.mul_pos (Nat.pos_of_ne_zero hne) (Nat.succ_pos _))

lemma length_insertSocket (a : NodeId × Nat) (l : List (NodeId × Nat)) :
    (insertSocket a l).length = l.length + 1 := by
  induction l with
  | nil => rfl
  | cons b l ih =>
    rw [insertSocket]
    split
    · rfl
    · rw [length_cons, ih, length_cons]

lemma length_outputLinks_le (id : NodeId) (output : Nat) :
    (net.outputLinks id output).length ≤ (net.outgoing id).length := by
  have key : ∀ l : List (NodeId × Nat), (l.foldr insertSocket []).length = l.length := by
    intro l
    induction l with
    | nil => rfl
    | cons a l ih => rw [foldr_cons, length_insertSocket, ih, length_cons]
  rw [outputLinks, key, length_map]
  exact length_filter_le ..

/-- Links into the node come from below, so those that go around it come from further down. -/
lemma bypass_progress (h : net.Climbs P rank) (hid : P id) (input : Nat) :
    Progress P rank net (net.bypass id input) := by
  have hcut := removeOutgoing_progress h id
  have hlen := net.length_outputLinks_le id 0
  unfold bypass
  split
  · rename_i source hsource
    have hup : rank source.1 < rank id := h.feeds (feeds_of_inputLink? hsource) hid
    have key : ∀ (consumers : List (NodeId × Nat)) (cur : Network), cur.Climbs P rank →
        (∀ c ∈ consumers, net.Feeds (id, 0) c) →
        (consumers.foldl (fun net c => net.link source c.1 c.2) cur).Climbs P rank ∧
          (consumers.foldl (fun net c => net.link source c.1 c.2) cur).slack rank ≤
            cur.slack rank + consumers.length * (rank source.1 + 1) := by
      intro consumers
      induction consumers with
      | nil => exact fun cur hr _ => ⟨hr, by simp⟩
      | cons c consumers ih =>
        intro cur hr hc
        have hdown := h.feeds (hc c mem_cons_self)
        obtain ⟨hr', hle⟩ := ih _ (hr.link (fun ht => hup.trans (hdown ht)) c.2) fun d hd =>
          hc d (mem_cons_of_mem _ hd)
        refine ⟨hr', hle.trans ?_⟩
        have := slack_link_le cur rank source c.1 c.2
        rw [length_cons, Nat.succ_mul]
        omega
    obtain ⟨hr, hle⟩ := key (net.outputLinks id 0) (net.removeOutgoing id) hcut.climbs
      fun c hc => mem_outputLinks.1 hc
    have hcount : (net.outputLinks id 0).length * (rank source.1 + 1) +
        (net.outputLinks id 0).length ≤ (net.outgoing id).length * (rank id + 1) := by
      rw [← Nat.mul_succ]
      exact Nat.mul_le_mul hlen (Nat.succ_le_succ hup)
    have hsum := slack_removeOutgoing_add_le net rank id
    exact ⟨hr, by dsimp only; omega, fun hne => by dsimp only at hne ⊢; omega⟩
  · exact ⟨hcut.climbs, hcut.le, fun hne => hcut.lt (by dsimp only at hne ⊢; omega)⟩

lemma foldNode_progress (h : net.Climbs P rank) (hid : P id) :
    Progress P rank net (net.foldNode id) := by
  unfold foldNode
  split
  · exact .refl h
  · split
    · exact .refl h
    · exact propagateConstant_progress h ..
    · exact removeOutgoing_progress h id
    · exact bypass_progress h hid _

lemma foldRound_progress (h : net.Climbs P rank) (hids : ∀ id ∈ net.ids, P id) :
    Progress P rank net net.foldRound := by
  rw [foldRound_eq]
  exact foldlRecOn _ _ (.refl h)
    fun acc hacc id hid => hacc.trans (foldNode_progress hacc.climbs (hids id hid))

lemma kind?_foldRound (n : NodeId) : net.foldRound.1.kind? n = net.kind? n := by
  refine foldRound_induction (P := fun cur => cur.kind? n = net.kind? n)
    (fun cur id hcur => Eq.trans ?_ hcur) rfl
  refine foldNode_induction (P := fun net => net.kind? n = cur.kind? n) rfl (fun h _ _ _ => ?_) ?_
    fun h _ _ _ _ => (kind?_link ..).trans h
  · rw [kind?_unlink, kind?_setValue, h]
  · exact kind?_congr (by rw [node?, removeOutgoing, (nodes_foldl_removeLink ..).1, node?])

/-- Rounds follow each other until one changes no link, however many that takes. -/
inductive FoldsTo : Network → Network → Prop
  | last {net : Network} (h : net.foldRound.2 = 0) : FoldsTo net net.foldRound.1
  | next {net net' : Network} (h : net.foldRound.2 ≠ 0) (rest : FoldsTo net.foldRound.1 net') :
      FoldsTo net net'

/-- There need not be more rounds than links can move. -/
lemma Climbs.foldsTo_foldRounds (h : net.Climbs P rank) (hids : ∀ id ∈ net.ids, P id) {fuel : Nat}
    (hfuel : net.slack rank < fuel) : net.FoldsTo (foldRounds fuel net) := by
  induction fuel generalizing net with
  | zero => exact absurd hfuel (Nat.not_lt_zero _)
  | succ fuel ih =>
    have hprogress := foldRound_progress h hids
    unfold foldRounds
    dsimp only
    split
    · exact .last ‹_›
    · rename_i hne
      refine .next hne (ih hprogress.climbs (fun id hid => hids id ?_)
        (lt_of_lt_of_le (hprogress.lt hne) (Nat.le_of_lt_succ hfuel)))
      obtain ⟨node, hn⟩ := mem_ids.1 hid
      exact mem_ids_of_kind? ((kind?_foldRound id).symm.trans (kind?_of_node? hn))

/-! ## What is left to fold -/

/-- What could be done to a node would change no link. -/
def Exhausted (net : Network) (id : NodeId) : Fold → Prop
  | .keep => True
  | .constant value => ∀ t, net.Feeds (id, 0) t →
      ((net.input? t.1 t.2).bind fun i => convertConstant value i.ty) = none
  | .discard => ∀ o t, ¬ net.Feeds (id, o) t
  | .bypass _ => ∀ t, ¬ net.Feeds (id, 0) t

/-- No node is left to fold. -/
def Folded (net : Network) : Prop :=
  ∀ id node, net.node? id = some node → net.Exhausted id (net.foldOf id node)

lemma outgoing_eq_nil (h : ∀ o t, ¬ net.Feeds (id, o) t) : net.outgoing id = [] := by
  rw [outgoing, filter_eq_nil_iff]
  intro l hl hs
  exact h l.2.output.toNat (l.2.target, l.2.input.toNat) ⟨l, hl, by rw [eq_of_beq hs], rfl⟩

lemma removeOutgoing_eq_self (h : ∀ o t, ¬ net.Feeds (id, o) t) : net.removeOutgoing id = net := by
  rw [removeOutgoing, outgoing_eq_nil h, foldl_nil]

/-- Links out of a mix start at its first output. -/
def MixesAtFirst (net : Network) : Prop :=
  ∀ {id o t}, net.kind? id = some .mixClosure → net.Feeds (id, o) t → o = 0

lemma Valid.mixesAtFirst (hv : net.Valid) : net.MixesAtFirst := by
  intro id o t hk h
  obtain ⟨_, _, hs, _⟩ := hv.joins h
  rw [outputType?, hk] at hs
  obtain rfl | o := o
  · rfl
  · cases hs

lemma foldNode_eq_self (hm : net.MixesAtFirst)
    (h : ∀ node, net.node? id = some node → net.Exhausted id (net.foldOf id node)) :
    net.foldNode id = (net, 0) := by
  rw [foldNode]
  cases hn : net.node? id with
  | none => rfl
  | some node =>
    have hex := h node hn
    dsimp only
    cases hf : net.foldOf id node with
    | keep => rfl
    | constant value =>
      rw [hf] at hex
      refine foldlRecOn (motive := (· = (net, 0))) _ _ rfl fun acc hacc s hs => ?_
      rw [hacc, foldInto, hex s (mem_outputLinks.1 hs)]
    | discard =>
      rw [hf] at hex
      rw [removeOutgoing_eq_self hex, outgoing_eq_nil hex, length_nil]
    | bypass input =>
      rw [hf] at hex
      obtain ⟨hk, _⟩ := foldOf_eq_bypass hf
      have hnone : ∀ o t, ¬ net.Feeds (id, o) t := fun o t ht =>
        hex t (hm (hk ▸ kind?_of_node? hn) ht ▸ ht)
      have hconsumers : net.outputLinks id 0 = [] :=
        eq_nil_iff_forall_not_mem.2 fun t ht => hex t (mem_outputLinks.1 ht)
      dsimp only
      rw [bypass, hconsumers, removeOutgoing_eq_self hnone]
      split <;> rfl

section

variable {α : Type} {f : Network × Nat → α → Network × Nat} (hmono : ∀ acc a, acc.2 ≤ (f acc a).2)
include hmono

lemma le_snd_foldl (l : List α) (acc : Network × Nat) : acc.2 ≤ (l.foldl f acc).2 := by
  induction l generalizing acc with
  | nil => exact le_rfl
  | cons a l ih => exact (hmono acc a).trans (ih _)

/-- If nothing is counted in all, nothing is counted in any step. -/
lemma snd_eq_zero_of_foldl (hstay : ∀ a, (f (net, 0) a).2 = 0 → f (net, 0) a = (net, 0))
    {l : List α} (h : (l.foldl f (net, 0)).2 = 0) : ∀ a ∈ l, (f (net, 0) a).2 = 0 := by
  induction l with
  | nil => exact fun a ha => absurd ha not_mem_nil
  | cons a l ih =>
    have ha : (f (net, 0) a).2 = 0 := Nat.le_zero.1 ((le_snd_foldl hmono l _).trans_eq h)
    rw [foldl_cons, hstay a ha] at h
    exact forall_mem_cons.2 ⟨ha, ih h⟩

end

/-- A node that folding leaves alone is exhausted. -/
lemma exhausted_of_foldNode {node : Node} (hn : net.node? id = some node)
    (h : (net.foldNode id).2 = 0) : net.Exhausted id (net.foldOf id node) := by
  rw [foldNode, hn] at h
  dsimp only at h
  cases hf : net.foldOf id node with
  | keep => trivial
  | constant value =>
    rw [hf] at h
    have hnone : ∀ s, (foldInto value (net, 0) s).2 = 0 →
        ((net.input? s.1 s.2).bind fun i => convertConstant value i.ty) = none := by
      intro s hs
      rw [foldInto] at hs
      cases hc : (net.input? s.1 s.2).bind fun i => convertConstant value i.ty with
      | none => rfl
      | some v =>
        rw [hc] at hs
        cases hs
    refine fun t ht => hnone t (snd_eq_zero_of_foldl (fun acc s => ?_)
      (fun s hs => ?_) h t (mem_outputLinks.2 ht))
    · unfold foldInto
      dsimp only
      split
      · exact Nat.le_succ _
      · exact le_rfl
    · rw [foldInto, hnone s hs]
  | discard =>
    rw [hf] at h
    rintro o t ⟨l, hl, hs, _⟩
    have hmem : l ∈ net.outgoing id := mem_filter.2 ⟨hl, by simp [(Prod.mk.inj hs).1]⟩
    rw [length_eq_zero_iff.1 h] at hmem
    cases hmem
  | bypass input =>
    rw [hf] at h
    intro t ht
    have hlen : (net.outputLinks id 0).length = 0 := by
      dsimp only [bypass] at h
      split at h <;> exact h
    have hmem := mem_outputLinks.2 ht
    rw [length_eq_zero_iff.1 hlen] at hmem
    cases hmem

lemma Folded.foldRound_eq_self (h : net.Folded) (hm : net.MixesAtFirst) :
    net.foldRound = (net, 0) := by
  rw [foldRound_eq]
  refine foldl_fixed' (fun id => ?_) _
  rw [roundStep, foldNode_eq_self hm (h id)]
  rfl

/-- A round that does nothing leaves nothing to fold. -/
lemma folded_of_foldRound (hm : net.MixesAtFirst) (h : net.foldRound.2 = 0) : net.Folded := by
  have hcount : ∀ id, (roundStep (net, 0) id).2 = 0 → (net.foldNode id).2 = 0 :=
    fun id hid => (Nat.zero_add _).symm.trans hid
  rw [foldRound_eq] at h
  refine fun id node hn => exhausted_of_foldNode hn (hcount id (snd_eq_zero_of_foldl
    (fun _ _ => Nat.le_add_right ..) (fun id hid => ?_) h id (mem_ids.2 ⟨node, hn⟩)))
  rw [roundStep, foldNode_eq_self hm fun node hn => exhausted_of_foldNode hn (hcount id hid)]
  rfl

/-- When rounds come to an end, nothing is left to fold. -/
lemma FoldsTo.folded {I : Network → Prop} (hkeep : ∀ {net}, I net → I net.foldRound.1)
    (hmix : ∀ {net}, I net → net.MixesAtFirst) (h : net.FoldsTo net') (hI : I net) :
    I net' ∧ net'.Folded := by
  induction h with
  | last hzero =>
    have hfolded := folded_of_foldRound (hmix hI) hzero
    rw [hfolded.foldRound_eq_self (hmix hI)]
    exact ⟨hI, hfolded⟩
  | next _ _ ih => exact ih (hkeep hI)

/-- Every rank can be lowered below the number of nodes: to the number of nodes of lower rank. -/
lemma exists_rank_le (net : Network) (rank : NodeId → Nat) :
    ∃ low : NodeId → Nat, (∀ {m n}, m ∈ net.ids → rank m < rank n → low m < low n) ∧
      (∀ {m n}, rank m < rank n → low m ≤ low n) ∧
      (∀ n, low n ≤ net.nodeCount) ∧ ∀ n ∈ net.ids, low n < net.nodeCount := by
  set below : NodeId → Finset NodeId := fun n => {m ∈ net.ids.toFinset | rank m < rank n}
  have hcard : net.ids.toFinset.card ≤ net.nodeCount := toFinset_card_le _
  have hsub : ∀ {m n}, rank m < rank n → below m ⊆ below n := fun hlt k hk =>
    Finset.mem_filter.2 ⟨(Finset.mem_filter.1 hk).1, (Finset.mem_filter.1 hk).2.trans hlt⟩
  refine ⟨fun n => (below n).card, fun {m n} hm hlt => Finset.card_lt_card ?_, fun hlt =>
    Finset.card_le_card (hsub hlt), fun n => (Finset.card_filter_le ..).trans hcard,
    fun n hn => (Finset.card_lt_card ?_).trans_le hcard⟩
  · exact (Finset.ssubset_iff_of_subset (hsub hlt)).2 ⟨m, Finset.mem_filter.2
      ⟨mem_toFinset.2 hm, hlt⟩, fun hm => lt_irrefl _ (Finset.mem_filter.1 hm).2⟩
  · exact Finset.filter_ssubset.2 ⟨n, mem_toFinset.2 hn, lt_irrefl _⟩

lemma slack_le (h : ∀ n, rank n ≤ net.nodeCount) :
    net.slack rank ≤ net.linkCount * (net.nodeCount + 1) := by
  calc net.slack rank
      ≤ (net.links.map fun l => rank l.2.source + 1).length • (net.nodeCount + 1) := by
        refine sum_le_card_nsmul _ _ fun x hx => ?_
        obtain ⟨l, _, rfl⟩ := mem_map.1 hx
        exact Nat.succ_le_succ (h _)
    _ = net.linkCount * (net.nodeCount + 1) := by rw [length_map, smul_eq_mul, linkCount]

/-- Folding comes to an end if links make no circle, even if they lead from or to nodes that are not
there.  Such nodes count for less, since they are never folded. -/
lemma Acyclic.foldsTo_foldConstants (h : net.Acyclic) : net.FoldsTo net.foldConstants := by
  obtain ⟨rank, hrank⟩ := h.exists_rank
  obtain ⟨low, hlow, hmono, hle, hlt⟩ := net.exists_rank_le rank
  set weight : NodeId → Nat := fun n => low n + if n ∈ net.ids then 1 else 0
  have hweight : ∀ n, weight n ≤ net.nodeCount := by
    intro n
    by_cases hn : n ∈ net.ids
    · simpa [weight, hn] using hlt n hn
    · simpa [weight, hn] using hle n
  refine Climbs.foldsTo_foldRounds (fun l hl ht => ?_) (fun id hid => hid)
    (Nat.lt_succ_of_le (slack_le hweight))
  have hup : rank l.2.source < rank l.2.target := hrank ⟨l, hl, rfl, rfl⟩
  have hsame := hmono hup
  simp only [weight, if_pos ht]
  split
  · exact Nat.add_lt_add_right (hlow ‹_› hup) 1
  · omega

lemma Valid.foldRound (hv : net.Valid) : net.foldRound.1.Valid := by
  obtain ⟨rank, hr⟩ := hv
  exact ⟨rank, (foldRound_trim hr fun _ => trivial).validBy hr⟩

/-- Folding leaves nothing to fold. -/
theorem Valid.folded_foldConstants (hv : net.Valid) : net.foldConstants.Folded := by
  obtain ⟨rank, hr⟩ := hv
  exact ((acyclic_of_rank hr.rankedLinks).foldsTo_foldConstants.folded Valid.foldRound
    Valid.mixesAtFirst ⟨rank, hr⟩).2

lemma Valid.foldConstants_eq_self (hv : net.Valid) (h : net.Folded) : net.foldConstants = net := by
  rw [foldConstants, foldRounds, h.foldRound_eq_self hv.mixesAtFirst]
  rfl

/-! ## Pruning -/

variable {output : NodeId}

lemma foldOf_congr (h : net'.isLinkedByName id = net.isLinkedByName id) (node : Node) :
    net'.foldOf id node = net.foldOf id node := by
  rw [foldOf, foldOf, h]

/-- What feeds a node that is kept is kept. -/
lemma Valid.mem_kept_of_feeds (hv : net.Valid) (hab : net.Feeds a b)
    (hb : b.1 ∈ net.kept output) : a.1 ∈ net.kept output := by
  obtain ⟨k, hk⟩ := (hv.joins hab).source
  obtain ⟨node, hn, _⟩ := kind?_eq_some_iff.1 hk
  obtain ⟨x, hx, way⟩ := (mem_reachable nodup_range).1 hb
  exact (mem_reachable nodup_range).2 ⟨x, hx,
    way.snoc (mem_predecessors.2 ⟨_, _, hab⟩) (mem_range.2 (node?_eq_some_lt hn))⟩

/-- A node that is kept keeps what feeds it. -/
lemma Valid.inputLink?_removeUnreachable (hv : net.Valid) (hid : id ∈ net.kept output) (i : Nat) :
    (net.removeUnreachable output).inputLink? id i = net.inputLink? id i := by
  obtain ⟨rank, hr⟩ := hv
  obtain ⟨hr', _, hf⟩ := hr.removeUnreachable_spec output
  refine Option.ext fun a => ?_
  rw [hr'.tidy.inputLink?_eq_some_iff, hr.tidy.inputLink?_eq_some_iff, hf]
  exact ⟨And.left, fun hab => ⟨hab, Valid.mem_kept_of_feeds ⟨rank, hr⟩ hab hid, hid⟩⟩

/-- Pruning leaves nothing to fold. -/
lemma Valid.folded_removeUnreachable (hv : net.Valid) (h : net.Folded) (output : NodeId) :
    (net.removeUnreachable output).Folded := by
  obtain ⟨rank, hr⟩ := id hv
  obtain ⟨_, hnode, hf⟩ := hr.removeUnreachable_spec output
  intro id node hn
  rw [hnode] at hn
  split at hn
  · rename_i hid
    have hlinked : (net.removeUnreachable output).isLinkedByName id = net.isLinkedByName id := by
      funext name
      simp [isLinkedByName, inputLinkByName?, hnode, hid, hn, hv.inputLink?_removeUnreachable hid]
    have hex := h id node hn
    rw [foldOf_congr hlinked]
    cases hfold : net.foldOf id node with
    | keep => trivial
    | constant value =>
      rw [hfold] at hex
      intro t ht
      obtain ⟨ht, _, htarget⟩ := (hf ..).1 ht
      rw [input?, hnode, if_pos htarget]
      exact hex t ht
    | discard =>
      rw [hfold] at hex
      exact fun o t ht => hex o t ((hf ..).1 ht).1
    | bypass input =>
      rw [hfold] at hex
      exact fun t ht => hex t ((hf ..).1 ht).1
  · cases hn

lemma Valid.removeUnreachable_removeUnreachable (hv : net.Valid) {k : NodeKind}
    (ho : net.kind? output = some k) :
    (net.removeUnreachable output).removeUnreachable output = net.removeUnreachable output := by
  obtain ⟨rank, hr⟩ := id hv
  obtain ⟨_, hnode, hf⟩ := hr.removeUnreachable_spec output
  set P := net.removeUnreachable output
  have hmem : ∀ {n k}, net.kind? n = some k → n ∈ net.kept output → n ∈ range P.nodes.size := by
    intro n k hk hn
    obtain ⟨node, hnet, _⟩ := kind?_eq_some_iff.1 hk
    exact mem_range.2 (node?_eq_some_lt ((hnode n).trans (by rw [if_pos hn, hnet])))
  -- A way to a node that is kept leads through nodes that are kept.
  have hway : ∀ {x n}, Way net.predecessors (· ∈ range net.nodes.size) x n →
      x ∈ net.kept output → (∃ k, net.kind? x = some k) →
        Way P.predecessors (· ∈ range P.nodes.size) x n := by
    intro x n way
    induction way with
    | here _ => exact fun hx ⟨k, hk⟩ => .here (hmem hk hx)
    | @step x y n _ hxy _ ih =>
      rintro hx ⟨k, hk⟩
      obtain ⟨o, i, hfeed⟩ := mem_predecessors.1 hxy
      have hy := hv.mem_kept_of_feeds hfeed hx
      exact .step (hmem hk hx) (mem_predecessors.2 ⟨o, i, (hf ..).2 ⟨hfeed, hy, hx⟩⟩)
        (ih hy (hv.joins hfeed).source)
  have hall : ∀ n ∈ P.ids, n ∈ P.kept output := by
    intro n hn
    obtain ⟨node, hn⟩ := mem_ids.1 hn
    rw [hnode] at hn
    split at hn
    · rename_i hkept
      obtain ⟨x, hx, way⟩ := (mem_reachable nodup_range).1 hkept
      obtain rfl := mem_singleton.1 hx
      obtain ⟨m, hm, _⟩ := kind?_eq_some_iff.1 ho
      exact (mem_reachable nodup_range).2 ⟨x, hx, hway way (mem_kept_output hm) ⟨k, ho⟩⟩
    · cases hn
  have hnil : P.ids.filter (fun n => !(P.kept output).contains n) = [] :=
    filter_eq_nil_iff.2 fun n hn => by simp [hall n hn]
  calc P.removeUnreachable output
      = (P.ids.filter fun n => !(P.kept output).contains n).foldl removeNode P := rfl
    _ = P := by rw [hnil, foldl_nil]

/-- Folding and pruning leave nothing to fold or prune. -/
theorem Valid.pruned_pruned (hv : net.Valid) (ho : net.kind? output = some .output) :
    (net.pruned output).pruned output = net.pruned output := by
  obtain ⟨rank, hr⟩ := id hv
  have htrim : Trim (fun _ => True) rank net net.foldConstants :=
    foldConstants_trim hr fun _ => trivial
  have hfold : net.foldConstants.Valid := ⟨rank, htrim.validBy hr⟩
  have hfolded : (net.pruned output).Folded :=
    hfold.folded_removeUnreachable hv.folded_foldConstants output
  calc (net.pruned output).foldConstants.removeUnreachable output
      = (net.pruned output).removeUnreachable output := by
        rw [(hv.pruned_spec ho).1.foldConstants_eq_self hfolded]
    _ = net.pruned output :=
        hfold.removeUnreachable_removeUnreachable ((htrim.kind? hr output).trans ho)

/-- Without closures and without a normal to derive, preparation only folds and prunes. -/
lemma finalize_eq_pruned {options : FinalizeOptions} (hb : options.doBump = false)
    (hs : (net.pruned output).inputLinkByName? output "Surface" = none)
    (hw : (net.pruned output).inputLinkByName? output "Volume" = none) :
    net.finalize output options = net.pruned output := by
  rw [finalize_eq, unweighed, if_neg (by simp [hb]), distributeFrom, distributeFrom, hs]
  rw [hw]

end Shading.Network
