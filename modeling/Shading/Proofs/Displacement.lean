import Shading.Proofs.Finished
import Shading.Proofs.Standard

/-!
# Displacement that is applied

Preparation copies constants into the inputs that they feed and drops the links.  To the output node
this matters: an entry point is compiled only if something is linked to its terminal.  The
displacement takes vectors, and of the outputs that give vectors only that of a plain color is a
constant.  So the displacement stays linked, to the same output, unless a plain color drives it, and
then the link is dropped, whatever the color is (`Graph.displaced_of_changes`).

Links name sockets by numbers of sixteen bits, so a node with many sockets may have inputs to which
several links lead.  This is not true of the output node, and nothing else is asked of the other
nodes here: `Network.Spares` follows the links into one input through all passes, and
`Graph.Driven` through all edits.
-/

namespace Shading

open List Network

variable {input o : Nat} {node : Node} {k : NodeKind} {color : Vec3} {t : SocketType}
  {a source : NodeId × Nat} {target : NodeId} {out : Output} {g : Graph}

/-- The kinds that folding knows something about. -/
def NodeKind.isFolded : NodeKind → Bool
  | .value _ | .rgb _ | .math .. | .emission | .background | .mixClosure => true
  | _ => false

namespace Network

variable {net net' net'' : Network} {b : NodeId × Nat} {id : NodeId} {l : Nat × Link}

/-! ## Links into one input -/

/-- The links into an input, with their numbers. -/
def into (net : Network) (b : NodeId × Nat) : List (Nat × Link) :=
  net.links.filter fun l => l.2.target == b.1 && l.2.input.toNat == b.2

lemma mem_into :
    l ∈ net.into b ↔ l ∈ net.links ∧ (l.2.target, l.2.input.toNat) = b := by
  rw [into, mem_filter, Bool.and_eq_true, beq_iff_eq, beq_iff_eq, Prod.ext_iff]

lemma feed?_eq_head? : net.feed? b.1 b.2 = (net.into b).head? := head?_filter.symm

lemma inputLink?_eq_head? : net.inputLink? b.1 b.2 =
    (net.into b).head?.map fun l => (l.2.source, l.2.output.toNat) := by
  rw [inputLink?, feed?_eq_head?]

/-- Links are numbered as before, and the links into the input are the same. -/
structure Spares (b : NodeId × Nat) (net net' : Network) : Prop where
  counted : net'.Counted
  into : net'.into b = net.into b

lemma Counted.refl (h : net.Counted) : net.Spares b net := ⟨h, rfl⟩

lemma Spares.trans (h : net.Spares b net') (h' : net'.Spares b net'') : net.Spares b net'' :=
  ⟨h'.counted, h'.into.trans h.into⟩

/-- What every step of a fold spares is spared by the fold. -/
lemma Counted.foldl {α β : Type} (toNet : β → Network) {f : β → α → β} {l : List α} {c : β}
    (h : (toNet c).Counted)
    (hf : ∀ d, ∀ x ∈ l, (toNet c).Spares b (toNet d) → (toNet d).Spares b (toNet (f d x))) :
    (toNet c).Spares b (toNet (l.foldl f c)) :=
  foldlRecOn l f (motive := fun d => (toNet c).Spares b (toNet d)) h.refl fun d hd x hx =>
    hd.trans (hf d x hx hd)

lemma into_addLink (net : Network) (b : NodeId × Nat) (link : Link) :
    ∃ k, (net.addLink link).into b =
      if (link.target, link.input.toNat) = b then (k, link) :: net.into b else net.into b := by
  obtain ⟨k, hk, _⟩ := net.addLink_spec link
  refine ⟨k, ?_⟩
  rw [into, hk, filter_cons]
  simp only [Bool.and_eq_true, beq_iff_eq, Prod.ext_iff]
  rfl

namespace Counted

variable (h : net.Counted)
include h

lemma spares_addNode (node : Node) : net.Spares b (net.addNode node).2 :=
  ⟨h.addNode node, by rw [into, links_addNode, into]⟩

lemma setValue (id : NodeId) (input : Nat) (value : SocketValue) :
    net.Spares b (net.setValue id input value) := ⟨h.of_links rfl rfl rfl, rfl⟩

/-- Removing links of which none leads to the input. -/
lemma removeLinks (p : Nat × Link → Bool) (hb : ∀ l ∈ net.into b, p l = false) :
    net.Spares b ((net.links.filter p).foldl (fun net l => net.removeLink l.1) net) := by
  obtain ⟨hc, hl⟩ := h.removeLinks_spec p
  refine ⟨hc, ?_⟩
  rw [into, hl, filter_filter, into]
  refine filter_congr fun l hmem => ?_
  by_cases hl : (l.2.target == b.1 && l.2.input.toNat == b.2) = true
  · simp [hl, hb l (mem_filter.2 ⟨hmem, hl⟩)]
  · simp [hl]

lemma removeOutgoing (hb : ∀ l ∈ net.into b, l.2.source ≠ id) :
    net.Spares b (net.removeOutgoing id) :=
  h.removeLinks _ fun l hl => beq_eq_false_iff_ne.2 (hb l hl)

lemma removeIncoming (hb : b.1 ≠ id) :
    net.Spares b (net.removeIncoming id) := by
  refine h.removeLinks _ fun l hl => beq_eq_false_iff_ne.2 ?_
  rintro rfl
  exact hb (congrArg Prod.fst (mem_into.1 hl).2).symm

lemma removeNode (hb : b.1 ≠ id)
    (hl : ∀ l ∈ net.into b, l.2.source ≠ id) : net.Spares b (net.removeNode id) := by
  have hout := h.removeOutgoing hl
  obtain ⟨hc, hi⟩ := hout.trans (hout.counted.removeIncoming hb)
  exact ⟨hc.of_links rfl rfl rfl, hi⟩

lemma unlink (c : NodeId × Nat) : (net.unlink c.1 c.2).Counted ∧
    (net.unlink c.1 c.2).into b = if b = c then (net.into c).tail else net.into b := by
  unfold Network.unlink
  cases hf : net.feed? c.1 c.2 with
  | none =>
    refine ⟨h, ?_⟩
    rw [feed?_eq_head?, head?_eq_none_iff] at hf
    dsimp only
    split
    · rename_i e
      rw [e, hf, tail_nil]
    · rfl
  | some l =>
    rw [feed?_eq_head?] at hf
    obtain ⟨rest, hrest⟩ := head?_eq_some_iff.1 hf
    have hl : l ∈ net.into c := hrest ▸ mem_cons_self
    refine ⟨h.removeLink (mem_map_of_mem (mem_into.1 hl).1), ?_⟩
    have hother : ∀ m ∈ net.links, m.1 = l.1 → m = l :=
      fun m hm e => h.eq_of_number hm (mem_into.1 hl).1 e
    have hinto : (net.removeLink l.1).into b = (net.into b).filter fun m => m.1 != l.1 := by
      rw [into, Network.removeLink, into, filter_filter, filter_filter]
      exact filter_congr fun m _ => Bool.and_comm ..
    rw [hinto]
    split
    · rename_i e
      subst e
      have hnodup : (l :: rest).Nodup := by
        rw [← hrest]
        exact h.numbers.of_map.sublist filter_sublist
      rw [hrest, tail_cons, filter_cons_of_neg (by simp), filter_eq_self]
      intro m hm
      rw [bne_iff_ne]
      intro e
      have hmem : m ∈ net.into b := hrest ▸ mem_cons_of_mem _ hm
      exact (nodup_cons.1 hnodup).1 (hother m (mem_into.1 hmem).1 e ▸ hm)
    · rename_i hne
      rw [filter_eq_self]
      intro m hm
      rw [bne_iff_ne]
      intro e
      rw [hother m (mem_into.1 hm).1 e] at hm
      exact hne ((mem_into.1 hm).2.symm.trans (mem_into.1 hl).2)

lemma spares_unlink (hb : (id, input) ≠ b) :
    net.Spares b (net.unlink id input) := by
  obtain ⟨hc, hi⟩ := h.unlink (id, input)
  exact ⟨hc, hi.trans (if_neg hb.symm)⟩

/-- A link into another input.  A link names inputs by numbers of sixteen bits. -/
lemma spares_link (hb : (target, input) ≠ b) (hb' : (target, (UInt16.ofNat input).toNat) ≠ b) :
    net.Spares b (net.link source target input) := by
  have hcut := h.spares_unlink hb
  obtain ⟨k, hk⟩ := into_addLink (net.unlink target input) b
    ⟨source.1, UInt16.ofNat source.2, target, UInt16.ofNat input⟩
  rw [if_neg hb'] at hk
  exact ⟨hcut.counted.addLink _, hk.trans hcut.into⟩

lemma spares_link_of_ne (hb : target ≠ b.1) : net.Spares b (net.link source target input) :=
  h.spares_link (fun e => hb (congrArg Prod.fst e)) fun e => hb (congrArg Prod.fst e)

end Counted

/-! ## Folding -/

lemma foldOf_eq_keep (hk : node.kind.isFolded = false) : net.foldOf id node = .keep := by
  unfold foldOf
  cases h : node.kind with
  | value _ | rgb _ | math _ _ | emission | background | mixClosure =>
    rw [h] at hk
    cases hk
  | _ => rfl

/-- What feeds the input is there and is not folded. -/
def Steady (net : Network) (b : NodeId × Nat) : Prop :=
  ∀ l ∈ net.into b, ∃ k, net.kind? l.2.source = some k ∧ k.isFolded = false

lemma Counted.foldInto {acc : Network × Nat} (h : acc.1.Counted) (value : SocketValue)
    {s : NodeId × Nat} (hs : s ≠ b) : acc.1.Spares b (foldInto value acc s).1 := by
  unfold Network.foldInto
  dsimp only
  split
  · have hset : acc.1.Spares b _ := h.setValue s.1 s.2 ‹_›
    exact hset.trans (hset.counted.spares_unlink hs)
  · exact h.refl

/-- What a node feeds that does not feed the input is another one. -/
lemma ne_of_feeds (hb : ∀ l ∈ net.into b, l.2.source ≠ id) {c : NodeId × Nat}
    (hc : net.Feeds (id, o) c) : c ≠ b := by
  rintro rfl
  obtain ⟨l, hl, hs, ht⟩ := hc
  exact hb l (mem_into.2 ⟨hl, ht⟩) (congrArg Prod.fst hs)

lemma Counted.foldNode (h : net.Counted) (hb : ∀ l ∈ net.into b, l.2.source ≠ id) :
    net.Spares b (net.foldNode id).1 := by
  refine foldNode_induction h.refl (fun {_ c _ _ v} hcur hc _ _ => ?_) (h.removeOutgoing hb)
    fun {_ _ a c} hcur _ _ _ hc => ?_
  · have hset := hcur.trans (hcur.counted.setValue c.1 c.2 v)
    exact hset.trans (hset.counted.spares_unlink (ne_of_feeds hb hc))
  · have hne := ne_of_feeds hb hc
    have hfits : (c.1, (UInt16.ofNat c.2).toNat) = c := by
      obtain ⟨l, _, _, rfl⟩ := hc
      simp
    exact hcur.trans (hcur.counted.spares_link hne (hfits.symm ▸ hne))

lemma Counted.foldNodes (acc : Network × Nat) (h : acc.1.Counted) (hs : acc.1.Spaced)
    (ids : List NodeId) (hb : ∀ l ∈ acc.1.into b, l.2.source ∉ ids ∨
      ∃ k, acc.1.kind? l.2.source = some k ∧ k.isFolded = false) :
    acc.1.Spares b (ids.foldl roundStep acc).1 := by
  induction ids generalizing acc with
  | nil => exact h.refl
  | cons id ids ih =>
    have hstep : acc.1.Spares b (acc.1.foldNode id).1 := by
      by_cases hid : ∃ l ∈ acc.1.into b, l.2.source = id
      · obtain ⟨l, hl, rfl⟩ := hid
        obtain hnot | ⟨k, hk, hfold⟩ := hb l hl
        · exact absurd mem_cons_self hnot
        · obtain ⟨node, hn, rfl⟩ := kind?_eq_some_iff.1 hk
          simp only [Network.foldNode, hn, foldOf_eq_keep hfold]
          exact h.refl
      · exact h.foldNode fun l hl e => hid ⟨l, hl, e⟩
    have hext := hs.foldNode id
    refine hstep.trans (ih (roundStep acc id) hstep.counted hext.spaced fun l hl => ?_)
    rw [show (roundStep acc id).1.into b = acc.1.into b from hstep.into] at hl
    refine (hb l hl).imp (fun hnot hm => hnot (mem_cons_of_mem _ hm)) ?_
    rintro ⟨k, hk, hfold⟩
    exact ⟨k, hext.kind? hk, hfold⟩

lemma Counted.foldRounds (h : net.Counted) (hs : net.Spaced) (hb : net.Steady b) (fuel : Nat) :
    net.Spares b (foldRounds fuel net) := by
  induction fuel generalizing net with
  | zero => exact h.refl
  | succ fuel ih =>
    have hround : net.Spares b net.foldRound.1 := by
      rw [foldRound_eq]
      exact foldNodes (net, 0) h hs _ fun l hl => .inr (hb l hl)
    have hext := hs.foldRound
    unfold foldRounds
    dsimp only
    split
    · exact hround
    · refine hround.trans (ih hround.counted hext.spaced fun l hl => ?_)
      obtain ⟨k, hk, hfold⟩ := hb l (hround.into ▸ hl)
      exact ⟨k, hext.kind? hk, hfold⟩

/-- Copying a color to everything that a node feeds drops the only link into the input. -/
lemma Counted.propagateConstant (h : net.Counted)
    (hb : net.into b = [l]) (hl : l.2.source = id ∧ l.2.output.toNat = 0)
    (ht : net.targetType? b = some t) (hvec : t.isVec3 = true) :
    (net.propagateConstant id (.vec3 color)).1.Counted ∧
      (net.propagateConstant id (.vec3 color)).1.into b = [] := by
  have key : ∀ (sockets : List (NodeId × Nat)) acc, acc.1.Counted →
      (acc.1.into b).length ≤ 1 → acc.1.targetType? b = some t → b ∈ sockets ∨ acc.1.into b = [] →
      (sockets.foldl (Network.foldInto (.vec3 color)) acc).1.Counted ∧
        (sockets.foldl (Network.foldInto (.vec3 color)) acc).1.into b = [] := by
    intro sockets
    induction sockets with
    | nil => exact fun acc hacc _ _ hmem => ⟨hacc, hmem.resolve_left not_mem_nil⟩
    | cons s sockets ih =>
      intro acc hacc hlen hty hmem
      have hty' : (Network.foldInto (.vec3 color) acc s).1.targetType? b = some t :=
        (targetType?_congr (form?_foldInto _ acc.2 s) b).trans hty
      by_cases e : s = b
      · subst e
        obtain ⟨i, hi, rfl⟩ := input?_of_targetType? hty
        have hfold : (Network.foldInto (.vec3 color) acc s).1 =
            (acc.1.setValue s.1 s.2 (.vec3 color)).unlink s.1 s.2 := by
          simp only [Network.foldInto, hi, Option.bind_some, convertConstant, if_pos hvec]
        have hset : acc.1.Spares s _ := hacc.setValue s.1 s.2 (.vec3 color)
        obtain ⟨hc, hinto⟩ := hset.counted.unlink s
        rw [if_pos rfl, hset.into] at hinto
        have hnil : (Network.foldInto (.vec3 color) acc s).1.into s = [] := by
          rw [hfold, hinto, ← List.length_eq_zero_iff, List.length_tail]
          omega
        exact ih _ (hfold ▸ hc) (by rw [hnil]; exact Nat.zero_le _) hty' (.inr hnil)
      · have hstep : acc.1.Spares b _ := hacc.foldInto (.vec3 color) e
        refine ih _ hstep.counted (hstep.into ▸ hlen) hty' ?_
        rw [hstep.into]
        exact hmem.imp_left fun hm => (List.mem_cons.1 hm).resolve_left (Ne.symm e)
  refine key _ (net, 0) h (by rw [hb]; exact le_rfl) ht (.inl (mem_outputLinks.2 ?_))
  obtain ⟨hmem, htarget⟩ := mem_into.1 (hb ▸ List.mem_singleton_self l : l ∈ net.into b)
  exact ⟨l, hmem, Prod.ext hl.1 hl.2, htarget⟩

section

variable {l : Nat × Link} (h : net.Counted) (hs : net.Spaced) (hb : net.into b = [l])
  (hk : net.kind? l.2.source = some (.rgb color)) (ho : l.2.output.toNat = 0)
  (ht : net.targetType? b = some t) (hvec : t.isVec3 = true)
include h hs hb hk ho ht hvec

/-- A color that drives the only link into the input is folded in the first round. -/
lemma Counted.foldRound_of_rgb : net.foldRound.1.Counted ∧ net.foldRound.1.into b = [] := by
  obtain ⟨node, hn, _⟩ := kind?_eq_some_iff.1 hk
  obtain ⟨front, back, hids⟩ := append_of_mem (mem_ids.2 ⟨node, hn⟩)
  -- Nodes before the color do not feed the input.
  have hfront : l.2.source ∉ front := by
    have hnodup := net.nodup_ids
    rw [hids, nodup_append] at hnodup
    exact fun hm => hnodup.2.2 _ hm _ mem_cons_self rfl
  have hspare : net.Spares b (front.foldl roundStep (net, 0)).1 :=
    foldNodes (net, 0) h hs front fun m hm => .inl (by
      rw [hb, mem_singleton] at hm
      exact hm ▸ hfront)
  have hext : net.Extends (front.foldl roundStep (net, 0)).1 :=
    Spaced.foldl Prod.fst (b := (net, 0)) hs fun _ id _ hacc => hacc.foldNode id
  set mid := front.foldl roundStep (net, 0)
  -- The color itself is copied and unlinked.
  have hcolor : (roundStep mid l.2.source).1.Counted ∧
      (roundStep mid l.2.source).1.into b = [] := by
    obtain ⟨node', hn', hk'⟩ := kind?_eq_some_iff.1 (hext.kind? hk)
    have hfold : mid.1.foldNode l.2.source = mid.1.propagateConstant l.2.source (.vec3 color) := by
      simp only [Network.foldNode, hn', foldOf, hk']
    rw [roundStep, hfold]
    exact hspare.counted.propagateConstant (hspare.into.trans hb) ⟨rfl, ho⟩ (hext.targetType? ht)
      hvec
  -- Nothing is left for the nodes behind it.
  have hback := foldNodes (b := b) (roundStep mid l.2.source) hcolor.1
    (hext.spaced.foldNode l.2.source).spaced back fun m hm => by simp [hcolor.2] at hm
  rw [foldRound_eq, hids, foldl_append, foldl_cons]
  exact ⟨hback.counted, hback.into.trans hcolor.2⟩

lemma Counted.foldConstants_of_rgb : net.foldConstants.Counted ∧ net.foldConstants.into b = [] := by
  obtain ⟨hc, hnil⟩ := h.foldRound_of_rgb hs hb hk ho ht hvec
  unfold foldConstants Network.foldRounds
  dsimp only
  split
  · exact ⟨hc, hnil⟩
  · have hrest := hc.foldRounds (b := b) hs.foldRound.spaced (fun m hm => by simp [hnil] at hm)
      (net.linkCount * (net.nodeCount + 1))
    exact ⟨hrest.counted, hrest.into.trans hnil⟩

end

/-! ## Pruning -/

/-- Pruning spares the links into the output node. -/
lemma Counted.removeUnreachable (h : net.Counted) (hn : net.node? b.1 = some node)
    (hb : ∀ l ∈ net.into b, ∃ k, net.kind? l.2.source = some k) :
    net.Spares b (net.removeUnreachable b.1) := by
  have hself : b.1 ∈ net.kept b.1 := mem_kept_output hn
  have hsource : ∀ l ∈ net.into b, l.2.source ∈ net.kept b.1 := by
    intro l hl
    obtain ⟨k, hk⟩ := hb l hl
    obtain ⟨node', hn', _⟩ := kind?_eq_some_iff.1 hk
    obtain ⟨hmem, ht⟩ := mem_into.1 hl
    have hpred : l.2.source ∈ net.predecessors b.1 :=
      mem_predecessors.2 ⟨l.2.output.toNat, b.2, l, hmem, rfl, ht⟩
    exact (mem_reachable nodup_range).2 ⟨b.1, mem_cons_self,
      .step (mem_range.2 (node?_eq_some_lt hn)) hpred (.here (mem_range.2 (node?_eq_some_lt hn')))⟩
  refine foldl (fun net : Network => net) h fun d id hid hd => ?_
  have hnot : id ∉ net.kept b.1 := by
    obtain ⟨_, hid⟩ := mem_filter.1 hid
    rw [Bool.not_eq_true', contains_eq_mem, decide_eq_false_iff_not] at hid
    exact hid
  refine hd.counted.removeNode (fun e => hnot (e ▸ hself)) fun l hl e => hnot ?_
  rw [hd.into] at hl
  exact e ▸ hsource l hl

/-! ## The normal and the weights -/

/-- The normal is another input of the output node. -/
lemma Counted.bumpFromDisplacement (h : net.Counted) (hs : net.Spaced)
    (ho : net.form? b.1 = some (Node.ofKind .output).form) (hb : b.2 ≠ 3) (useObjectSpace : Bool) :
    net.Spares b (net.bumpFromDisplacement b.1 useObjectSpace) := by
  unfold Network.bumpFromDisplacement
  split
  · rename_i displacement normal _ hnormal
    split
    · rename_i source _
      obtain ⟨node, hn, hform⟩ := exists_node?_of_form? ho
      rw [hn, Option.bind_some, Node.inputIndex?_eq_of_form hform] at hnormal
      obtain rfl : 3 = normal := Option.some.inj hnormal
      let bump := Node.ofKind (.bumpFromDisplacement useObjectSpace)
      have hadd : net.Spares b (net.addNode bump).2 := h.spares_addNode bump
      have hlink : net.Spares b ((net.addNode bump).2.link source (net.addNode bump).1 0) :=
        hadd.trans (hadd.counted.spares_link_of_ne (hs.addNode_ne ho bump))
      refine hlink.trans (hlink.counted.spares_link ?_ ?_)
      all_goals exact fun e => hb (congrArg Prod.snd e).symm
    · exact h.refl
  · exact h.refl

/-- Two networks of which the second extends the first, with the links into an input of the output
node spared. -/
structure Shields (b : NodeId × Nat) (net net' : Network) : Prop where
  output : net.form? b.1 = some (Node.ofKind .output).form
  spares : net.Spares b net'
  extension : net.Extends net'

lemma Shields.refl (h : net.Shields b net') : net'.Shields b net' :=
  ⟨h.extension.form h.output, h.spares.counted.refl, h.extension.spaced.refl⟩

lemma Shields.trans (h : net.Shields b net') (h' : net'.Shields b net'') : net.Shields b net'' :=
  ⟨h.output, h.spares.trans h'.spares, h.extension.trans h'.extension⟩

/-- Weights are handed to closures, and an output node is none. -/
lemma conveys_shields : Conveys (Shields b) (fun _ _ => True) fun _ c => c.1 ≠ b.1 where
  refl h := h.refl
  trans h h' := h.trans h'
  carries _ _ := trivial
  takes _ hc := hc
  one := trivial
  source _ _ _ := trivial
  weightIndex? h hn hi := by
    rintro rfl
    have ho := h.output
    rw [form?_of_node? hn, Option.some.injEq] at ho
    rw [Node.weightIndex?, Node.inputIndex?_eq_of_form ho] at hi
    exact absurd ((NodeKind.weightIndex?_of_isJunction rfl _).symm.trans hi) (by simp)
  setValue h _ _ _ := ⟨h.output, h.spares.counted.setValue .., h.extension.spaced.setValue ..⟩
  unlink h hc := ⟨h.output, h.spares.counted.spares_unlink fun e => hc (congrArg Prod.fst e),
    h.extension.spaced.unlink ..⟩
  link h _ hc := ⟨h.output, h.spares.counted.spares_link_of_ne hc, h.extension.spaced.link ..⟩
  addNode {net k} h hk := by
    have hs := h.extension.spaced
    refine ⟨⟨h.output, h.spares.counted.spares_addNode _, hs.extends_addNode ?_⟩,
      fun _ _ => ⟨hs.addNode_ne h.output _, trivial⟩⟩
    obtain rfl | rfl := hk <;> exact NodeKind.noConfusion

lemma Counted.finalize (h : net.foldConstants.Counted) (hs : net.Spaced)
    (ho : net.form? b.1 = some (Node.ofKind .output).form) (hb : b.2 ≠ 3)
    (hk : ∀ l ∈ net.foldConstants.into b, ∃ k, net.kind? l.2.source = some k)
    (options : FinalizeOptions) : net.foldConstants.Spares b (net.finalize b.1 options) := by
  have hfold : net.Extends net.foldConstants := hs.foldRounds _
  have hform := hfold.form ho
  obtain ⟨node, hn, _⟩ := exists_node?_of_form? hform
  have hprune := h.removeUnreachable hn fun l hl => (hk l hl).imp fun k hk => hfold.kind? hk
  have hpruned := (hfold.spaced.removeUnreachable b.1).1
  have ho' : (net.foldConstants.removeUnreachable b.1).form? b.1 = _ :=
    hfold.spaced.form?_removeUnreachable.trans hform
  exact hprune.trans (conveys_shields.finalize ⟨ho', hprune.counted.refl, hpruned.refl⟩ fun _ =>
    ⟨ho', hprune.counted.bumpFromDisplacement hpruned ho' hb _,
      hpruned.bumpFromDisplacement ..⟩).spares

/-- The displacement is the third input of an output node. -/
lemma inputLinkByName?_displacement (ho : net.form? id = some (Node.ofKind .output).form) :
    net.inputLinkByName? id "Displacement" =
      (net.into (id, 2)).head?.map fun l => (l.2.source, l.2.output.toNat) := by
  obtain ⟨node, hn, hform⟩ := exists_node?_of_form? ho
  rw [inputLinkByName?, hn]
  show (node.inputIndex? "Displacement").bind (net.inputLink? id) = _
  rw [Node.inputIndex?_eq_of_form hform]
  exact inputLink?_eq_head? (b := (id, 2))

end Network

/-! ## What drives the displacement -/

/-- Folding leaves nodes of the kind alone, or the output is that of a plain color. -/
def NodeKind.Drives (k : NodeKind) (o : Nat) : Prop :=
  k.isFolded = false ∨ o = 0 ∧ ∃ color, k = .rgb color

lemma NodeKind.drives_of_isVec3 (ho : k.outputs[o]? = some out) (hvec : out.ty.isVec3 = true) :
    k.Drives (UInt16.ofNat o).toNat := by
  -- the folded kinds have one output each
  have hone : ∀ {single : Output}, k.outputs = [single] → o = 0 ∧ out = single := by
    intro single hk
    rw [hk, getElem?_singleton] at ho
    split at ho
    · exact ⟨‹_›, (Option.some.inj ho).symm⟩
    · cases ho
  cases k with
  | value _ | math _ _ | emission | background | mixClosure =>
    obtain ⟨_, rfl⟩ := hone rfl
    cases hvec
  | rgb color =>
    obtain ⟨rfl, _⟩ := hone rfl
    exact .inr ⟨rfl, color, rfl⟩
  | _ => exact .inl rfl

lemma SocketType.isVec3_of_linksTo_vector (h : t.linksTo .vector = true) : t.isVec3 = true := by
  revert h
  cases t <;> decide

namespace Graph

variable {g g' : Graph} {P : NodeKind → Nat → Prop}

/-- Something a graph may be asked for, other than to prepare it. -/
def Change.isEditing : Change → Bool
  | .finalize _ => false
  | _ => true

/-- At most one link leads to the displacement of a graph that was not prepared, and it comes from a
node that is there.  Links are numbered as they should be, and the output node has the sockets of
its kind. -/
structure Driven (P : NodeKind → Nat → Prop) (g : Graph) : Prop where
  spaced : g.net.Spaced
  counted : g.net.Counted
  output : g.net.form? g.output = some (Node.ofKind .output).form
  fresh : g.finalized = none
  single : (g.net.into (g.output, 2)).length ≤ 1
  source : ∀ l ∈ g.net.into (g.output, 2), ∃ k, g.net.kind? l.2.source = some k ∧
    P k l.2.output.toNat

namespace Driven

lemma new : Graph.new.Driven P where
  spaced := standard_new.net.spaced
  counted := tidy_empty.toCounted.addNode _
  output := rfl
  fresh := rfl
  single := Nat.zero_le 1
  source l hl := by cases hl

variable (h : g.Driven P)
include h

/-- A change that keeps the nodes and leaves some of the links into the displacement. -/
lemma of_sublist (hout : g'.output = g.output) (hfresh : g'.finalized = none)
    (hs : g'.net.Spaced) (hc : g'.net.Counted)
    (hform : ∀ {n f}, g.net.form? n = some f → g'.net.form? n = some f)
    (hinto : (g'.net.into (g.output, 2)).Sublist (g.net.into (g.output, 2))) : g'.Driven P where
  spaced := hs
  counted := hc
  output := hout ▸ hform h.output
  fresh := hfresh
  single := hout ▸ hinto.length_le.trans h.single
  source l hl := by
    obtain ⟨k, hk, hP⟩ := h.source l (hinto.subset (hout ▸ hl))
    rw [kind?_eq_form?] at hk ⊢
    obtain ⟨f, hf, rfl⟩ := Option.map_eq_some_iff.1 hk
    exact ⟨f.kind, by rw [hform hf, Option.map_some], hP⟩

lemma addNode (node : Node) : (g.addNode node).2.Driven P := by
  have hspare := h.counted.spares_addNode (b := (g.output, 2)) node
  exact h.of_sublist rfl rfl (h.spaced.addNode node) hspare.counted
    (h.spaced.form?_addNode node) (hspare.into ▸ .refl _)

lemma of_spares (hout : g'.output = g.output) (hfresh : g'.finalized = none)
    (he : g.net.Extends g'.net) (hspare : g.net.Spares (g.output, 2) g'.net) : g'.Driven P :=
  h.of_sublist hout hfresh he.spaced hspare.counted he.form (hspare.into ▸ .refl _)

lemma inputIndex?_eq (hn : g.net.node? g.output = some node)
    (name : String) : node.inputIndex? name = (Node.ofKind .output).inputIndex? name := by
  have hform := (form?_of_node? hn).symm.trans h.output
  exact Node.inputIndex?_eq_of_form (Option.some.inj hform) name

lemma targetType?_eq : g.net.targetType? (g.output, 2) = some .vector := by
  rw [targetType?, h.output]
  rfl

lemma type_eq (hn : g.net.node? g.output = some node)
    (ht : (node.inputs[2]?).map Input.ty = some t) : t = .vector := by
  obtain ⟨i, hi, rfl⟩ := Option.map_eq_some_iff.1 ht
  have hty := targetType?_of_input? (b := (g.output, 2)) (by
    rw [input?, hn, Option.bind_some, hi] : g.net.input? g.output 2 = some i)
  exact Option.some.inj (hty.symm.trans h.targetType?_eq)

lemma unlink (n : NodeId) (i : Nat) : { g with net := g.net.unlink n i }.Driven P := by
  obtain ⟨hc, hinto⟩ := h.counted.unlink (n, i)
  have he := h.spaced.unlink n i
  refine h.of_sublist rfl h.fresh he.spaced hc he.form (hinto ▸ ?_)
  split
  · rename_i e
    exact e ▸ tail_sublist _
  · exact .refl _

/-- A link of the displacement takes the place of the one before it. -/
lemma link (hk : g.net.kind? a.1 = some k)
    (hP : P k (UInt16.ofNat a.2).toNat) : (g.edit (g.net.link a g.output 2)).Driven P := by
  obtain ⟨hc, hcut⟩ := h.counted.unlink (g.output, 2)
  have hnil : (g.net.unlink g.output 2).into (g.output, 2) = [] := by
    rw [hcut, if_pos rfl, ← length_eq_zero_iff, length_tail]
    have := h.single
    omega
  obtain ⟨number, hlink⟩ := (g.net.unlink g.output 2).into_addLink (g.output, 2)
    ⟨a.1, UInt16.ofNat a.2, g.output, UInt16.ofNat 2⟩
  have hinto : (g.net.link a g.output 2).into (g.output, 2) =
      [(number, ⟨a.1, UInt16.ofNat a.2, g.output, UInt16.ofNat 2⟩)] :=
    hnil ▸ hlink.trans (if_pos rfl)
  have he := h.spaced.link a g.output 2
  refine ⟨he.spaced, hc.addLink _, he.form h.output, rfl, ?_, fun l hl => ?_⟩
  · exact hinto ▸ le_rfl
  · obtain rfl := mem_singleton.1 (hinto ▸ hl)
    exact ⟨k, he.kind? hk, hP⟩

lemma change {c : Change} (hc : c.isEditing = true)
    (hP : ∀ {n node o out}, g.net.node? n = some node → node.outputs[o]? = some out →
      out.ty.isVec3 = true → P node.kind (UInt16.ofNat o).toNat) : (g.change c).Driven P := by
  cases c with
  | add kind => exact h.addNode _
  | addNode node => exact h.addNode node
  | setInput id name value =>
    refine attempt h fun g' hg' => ?_
    obtain ⟨_, i, _, _, _, _, _, rfl⟩ := setInput_eq_ok hg'
    exact h.of_spares rfl rfl (h.spaced.setValue id i value) (h.counted.setValue id i value)
  | connect source output target input =>
    refine attempt h fun g' hg' => ?_
    obtain ⟨o, s, i, t, ho, hi, hst, _, rfl⟩ := connect_eq_ok hg'
    obtain ⟨node, hn, _, ho⟩ := requireOutput_eq_ok ho
    obtain ⟨node', hn', hidx, ht⟩ := requireInput_eq_ok hi
    have he := h.spaced.link (source, o) target i
    by_cases htarget : target = g.output
    · subst htarget
      rw [h.inputIndex?_eq hn'] at hidx
      by_cases hi : i = 2
      · subst hi
        obtain ⟨out, hout, rfl⟩ := Option.map_eq_some_iff.1 ho
        refine h.link (kind?_eq_some_iff.2 ⟨node, hn, rfl⟩) (hP hn hout ?_)
        rw [h.type_eq hn' ht] at hst
        exact SocketType.isVec3_of_linksTo_vector hst
      · have hlt : i < 4 := (findIdx?_eq_some_iff_getElem.1 hidx).1
        have hfits := toNat_ofNat_of_fits (n := i) (by omega)
        refine h.of_spares rfl rfl he (h.counted.spares_link ?_ ?_)
        · exact fun e => hi (congrArg Prod.snd e)
        · exact fun e => hi (hfits.symm.trans (congrArg Prod.snd e))
    · exact h.of_spares rfl rfl he (h.counted.spares_link_of_ne htarget)
  | disconnect target input => exact attempt_disconnect h (h.unlink target)
  | finalize options => cases hc

lemma exists_into (ha : g.net.inputLinkByName? g.output "Displacement" = some a) :
    ∃ l k, g.net.into (g.output, 2) = [l] ∧ (l.2.source, l.2.output.toNat) = a ∧
      g.net.kind? a.1 = some k ∧ P k a.2 := by
  rw [inputLinkByName?_displacement h.output] at ha
  obtain ⟨l, hl, rfl⟩ := Option.map_eq_some_iff.1 ha
  obtain ⟨rest, hrest⟩ := head?_eq_some_iff.1 hl
  obtain ⟨k, hk, hP⟩ := h.source l (hrest ▸ mem_cons_self)
  have hone := h.single
  rw [hrest, length_cons] at hone
  obtain rfl : rest = [] := length_eq_zero_iff.1 (by omega)
  exact ⟨l, k, hrest, rfl, hk, hP⟩

/-- Preparation leaves the displacement with the links that folding leaves. -/
lemma inputLinkByName?_finalize (hc : g.net.foldConstants.Counted)
    (hsub : g.net.foldConstants.into (g.output, 2) ⊆ g.net.into (g.output, 2))
    (options : FinalizeOptions) :
    (g.finalize options).net.inputLinkByName? g.output "Displacement" =
      (g.net.foldConstants.into (g.output, 2)).head?.map
        fun l => (l.2.source, l.2.output.toNat) := by
  have hspare := hc.finalize h.spaced h.output (by decide : 2 ≠ 3)
    (fun l hl => (h.source l (hsub hl)).imp fun k hk => hk.1) options
  have hfold : g.net.Extends g.net.foldConstants := h.spaced.foldRounds _
  have hform := (h.spaced.finalize_extends g.output options).form
    (hfold.spaced.form?_removeUnreachable.trans (hfold.form h.output))
  rw [net_finalize h.fresh, inputLinkByName?_displacement hform, hspare.into]

/-- A displacement that no plain constant drives. -/
lemma inputLinkByName?_finalize_of_not_isFolded
    (ha : g.net.inputLinkByName? g.output "Displacement" = some a)
    (hk : g.net.kind? a.1 = some k) (hfold : k.isFolded = false) (options : FinalizeOptions) :
    (g.finalize options).net.inputLinkByName? g.output "Displacement" = some a := by
  obtain ⟨l, _, hl, rfl, _⟩ := h.exists_into ha
  have hspare := h.counted.foldRounds h.spaced
    (fun m hm => ⟨k, mem_singleton.1 (hl ▸ hm) ▸ hk, hfold⟩)
    (g.net.linkCount * (g.net.nodeCount + 1) + 1)
  have hinto : g.net.foldConstants.into (g.output, 2) = [l] := hspare.into.trans hl
  rw [h.inputLinkByName?_finalize hspare.counted (by rw [hinto, hl]; exact fun _ hm => hm), hinto]
  rfl

/-- A displacement that a plain color drives. -/
lemma inputLinkByName?_finalize_of_rgb
    (ha : g.net.inputLinkByName? g.output "Displacement" = some a)
    (hk : g.net.kind? a.1 = some (.rgb color)) (ho : a.2 = 0) (options : FinalizeOptions) :
    (g.finalize options).net.inputLinkByName? g.output "Displacement" = none := by
  obtain ⟨l, _, hl, rfl, _⟩ := h.exists_into ha
  obtain ⟨hc, hnil⟩ := h.counted.foldConstants_of_rgb h.spaced hl hk ho h.targetType?_eq rfl
  rw [h.inputLinkByName?_finalize hc (hnil ▸ nil_subset _), hnil]
  rfl

end Driven

end Graph

/-! ## Sections and failures -/

namespace Shader

variable {s : Shader} {options : BytecodeOptions} {ids : AttributeIds}

/-- A displacement that is linked after preparation has a section, unless it fails. -/
lemma isSome_displacement_iff :
    ((s.compileBytecode options ids).1.program.entries.get? .displacement).isSome = true ↔
      s.prepare.isTerminalLinked .displacement = true ∧
        ∀ f ∈ (s.compileBytecode options ids).1.failures, f.entry ≠ .displacement := by
  obtain ⟨finished, hmade⟩ := exists_made s.prepare s.needsBump options ids
  rw [isSome_entries_iff_finished hmade, hmade.present, mem_bytecodeEntries]
  simp [compileBytecode]

/-- The flag says whether there is a section. -/
lemma hasDisplacement_eq : (s.compileBytecode options ids).2.1.flags.hasDisplacement =
    ((s.compileBytecode options ids).1.program.entries.get? .displacement).isSome := by
  obtain ⟨finished, hmade⟩ := exists_made s.prepare s.needsBump options ids
  rw [Bool.eq_iff_iff, isSome_entries_iff_finished hmade]
  exact (hasDisplacement_of_made hmade rfl).trans (and_iff_left (fun e => by cases e)).symm

end Shader

/-! ## Graphs that edits have made -/

namespace Graph

/-- However the graph is prepared, its displacement is linked to the source; and shaders with the
graph get a section for the displacement, and its flag, unless there is no source or the section
fails. -/
structure Displaced (g : Graph) (source : Option (NodeId × Nat)) : Prop where
  link : ∀ options,
    (g.finalize options).net.inputLinkByName? g.output "Displacement" = source
  present : ∀ {s : Shader}, s.graph = g → ∀ options ids,
    ((s.compileBytecode options ids).1.program.entries.get? .displacement).isSome = true ↔
      source.isSome = true ∧
        ∀ f ∈ (s.compileBytecode options ids).1.failures, f.entry ≠ .displacement
  flag : ∀ {s : Shader}, s.graph = g → ∀ options ids,
    (s.compileBytecode options ids).2.1.flags.hasDisplacement =
      ((s.compileBytecode options ids).1.program.entries.get? .displacement).isSome

lemma Displaced.of_link {source : Option (NodeId × Nat)} (h : ∀ options,
    (g.finalize options).net.inputLinkByName? g.output "Displacement" = source) :
    g.Displaced source where
  link := h
  present := by
    rintro s rfl options ids
    rw [Shader.isSome_displacement_iff, ← h s.finalizeOptions]
    rw [← output_finalize s.graph s.finalizeOptions]
    rfl
  flag _ options ids := Shader.hasDisplacement_eq

/-- In a standard graph, what gives vectors is not folded, apart from colors. -/
lemma Standard.drives (h : g.Standard) {n : NodeId}
    (hn : g.net.node? n = some node) (ho : node.outputs[o]? = some out)
    (hvec : out.ty.isVec3 = true) : node.kind.Drives (UInt16.ofNat o).toNat := by
  cases hk : node.kind.isScript with
  | true =>
    refine .inl ?_
    cases hkind : node.kind with
    | script _ => rfl
    | _ =>
      rw [hkind] at hk
      cases hk
  | false =>
    have hform := h.net.sockets (form?_of_node? hn) hk
    have houtputs : node.outputs = node.kind.outputs := congrArg Node.Form.outputs hform
    exact NodeKind.drives_of_isVec3 (houtputs ▸ ho) hvec

/-- The displacement of a graph that edits have made stays linked to the output that drives it, so
that it is compiled, if folding leaves nodes of this kind alone.  If a plain color drives it, the
link is dropped and there is no section, whatever the color is.  If only scripts have sockets of
their own, nothing else can drive it. -/
theorem displaced_of_changes {cs : List Change} (hcs : ∀ c ∈ cs, c.isEditing = true)
    {a : NodeId × Nat} (ha : (new.changes cs).net.inputLinkByName? (new.changes cs).output
      "Displacement" = some a) :
    ∃ k, (new.changes cs).net.kind? a.1 = some k ∧
      (k.isFolded = false → (new.changes cs).Displaced (some a)) ∧
      (∀ color, k = .rgb color → a.2 = 0 → (new.changes cs).Displaced none) ∧
      ((∀ c ∈ cs, c.IsStandard) → k.isFolded = false ∨ a.2 = 0 ∧ ∃ color, k = .rgb color) := by
  have hdriven : (new.changes cs).Driven fun _ _ => True :=
    changes_induction .new fun g c hc hg => hg.change (hcs c hc) fun _ _ _ => trivial
  obtain ⟨_, k, _, _, hk, _⟩ := hdriven.exists_into ha
  refine ⟨k, hk, fun hfold => .of_link fun options => ?_, fun color hcolor ho =>
    .of_link fun options => ?_, fun hstandard => ?_⟩
  · exact hdriven.inputLinkByName?_finalize_of_not_isFolded ha hk hfold options
  · exact hdriven.inputLinkByName?_finalize_of_rgb ha (hcolor ▸ hk) ho options
  · obtain ⟨_, hdrives⟩ : (new.changes cs).Standard ∧ (new.changes cs).Driven NodeKind.Drives :=
      changes_induction (P := fun g => g.Standard ∧ g.Driven NodeKind.Drives) ⟨standard_new, .new⟩
        fun g c hc hg => ⟨hg.1.change (hstandard c hc), hg.2.change (hcs c hc) hg.1.drives⟩
    obtain ⟨_, _, _, _, hk', hd⟩ := hdrives.exists_into ha
    obtain rfl := Option.some.inj (hk.symm.trans hk')
    exact hd

/-- A displacement that two nodes drive in turn: a plain color, then the normal. -/
def redrawn : List Change :=
  [.add (.rgb ⟨1, 0, 0⟩), .connect 1 "Color" 0 "Displacement", .add .geometry]

/-- The red displacement is dropped, and that along the normal stays. -/
theorem redrawn_displaced :
    (∀ c ∈ redrawn ++ [.connect 2 "Normal" 0 "Displacement"], c.isEditing = true) ∧
      (new.changes redrawn).Displaced none ∧
      (new.changes (redrawn ++ [.connect 2 "Normal" 0 "Displacement"])).Displaced
        (some (2, 1)) := by
  have hcs : ∀ c ∈ redrawn ++ [.connect 2 "Normal" 0 "Displacement"], c.isEditing = true := by
    decide
  have hcs' : ∀ c ∈ redrawn, c.isEditing = true := fun c hc => hcs c (List.mem_append_left _ hc)
  obtain ⟨k, hk, _, hcolor, _⟩ := displaced_of_changes hcs' (a := (1, 0)) (by decide +kernel)
  obtain ⟨k', hk', hkept, _, _⟩ := displaced_of_changes hcs (a := (2, 1)) (by decide +kernel)
  have hred : some k = some (.rgb ⟨1, 0, 0⟩) := hk.symm.trans (by decide +kernel)
  have hnormal : some k' = some .geometry := hk'.symm.trans (by decide +kernel)
  exact ⟨hcs, hcolor _ (Option.some.inj hred) rfl, hkept (Option.some.inj hnormal ▸ rfl)⟩

end Graph

end Shading
