import Shading.Proofs.Loading
import Shading.Proofs.Stability

/-!
# Preparation within bounds

The passes of the preparation never fail: they pass over a node that is not there, link whatever
they are told to link, and cut off a loop that has run for too long.  The checked passes below do the
same work and give up instead: `wire?` when one of the two nodes is not there, `removeUnreachable?`
when the search leaves the numbers in use, `foldRounds?` and `distribute?` when the bound on rounds or
on depth is used up.

They never give up on a network whose links start at outputs that are there, end at nodes that are
there and make no cycle (`Intact.finalize?_eq`).  Nothing is asked of the positions at which links
end, of types, or of the number of links into one input.  Two arguments carry this.  Folding ends
because links only move down (`slack`).  Handing out weights ends because every link that it adds has
on one of its sides a node without closures, so that mixes and sums stay ranked (`Laid`).
-/

namespace Shading

open List Network Option

variable {n target : NodeId} {node : Node} {a source b : NodeId × Nat} {fuel : Nat}

/-! ## Inputs for closures -/

/-- Closures are looked for at this input: the node combines closures, or the input takes one. -/
def Node.Form.Gathers (f : Node.Form) (i : Nat) : Prop :=
  f.kind.special = .combineClosure ∨ ∃ s, f.inputs[i]? = some s ∧ s.2.1 = .closure

/-- No closures are looked for behind the node. -/
def Node.Form.IsPlain (f : Node.Form) : Prop := ∀ i, ¬ f.Gathers i

lemma Node.isPlain_ofKind {k : NodeKind} (hs : k.special ≠ .combineClosure)
    (hc : k.handlesClosures = false) : (Node.ofKind k).form.IsPlain := by
  rintro i (h | ⟨s, hi, ht⟩)
  · exact hs h
  · obtain ⟨input, hinput, rfl⟩ := mem_map.1 (mem_of_getElem? hi)
    rw [NodeKind.handlesClosures_of_mem_inputs hinput ht] at hc
    cases hc

namespace Network

variable {net net' : Network} {rank : NodeId → Nat} {id output : NodeId} {weight : Weight}

/-! ## Checked passes -/

/-- Links two nodes, if both are there. -/
def wire? (net : Network) (source : NodeId × Nat) (target : NodeId) (input : Nat) :
    Option Network :=
  if net.contains source.1 && net.contains target then some (net.link source target input) else none

def bypass? (net : Network) (id : NodeId) (input : Nat) : Option (Network × Nat) :=
  let consumers := net.outputLinks id 0
  let cut := net.removeOutgoing id
  match net.inputLink? id input with
  | some source => do
    let linked ← consumers.foldlM (fun net c => net.wire? source c.1 c.2) cut
    return (linked, consumers.length)
  | none => some (cut, consumers.length)

def foldNode? (net : Network) (id : NodeId) : Option (Network × Nat) := do
  let node ← net.node? id
  match net.foldOf id node with
  | .keep => return (net, 0)
  | .constant value => return net.propagateConstant id value
  | .discard => return (net.removeOutgoing id, (net.outgoing id).length)
  | .bypass input => net.bypass? id input

def foldRound? (net : Network) : Option (Network × Nat) :=
  net.ids.foldlM (fun acc id => do
    let folded ← acc.1.foldNode? id
    return (folded.1, acc.2 + folded.2)) (net, 0)

/-- Repeats rounds until one changes nothing, which has to happen in time. -/
def foldRounds? : Nat → Network → Option Network
  | 0, _ => none
  | fuel + 1, net => do
    let folded ← net.foldRound?
    if folded.2 = 0 then return folded.1 else foldRounds? fuel folded.1

/-- `removeUnreachable` for a search that looks only at numbers in use. -/
def removeUnreachable? (net : Network) (output : NodeId) : Option Network :=
  if (output :: (net.kept output).flatMap net.predecessors).all (· < net.bound) then
    some (net.removeUnreachable output)
  else none

/-- `bumpFromDisplacement` for an output node that has to be there, with checked links. -/
def bumpFromDisplacement? (net : Network) (output : NodeId) (useObjectSpace : Bool) :
    Option Network := do
  let node ← net.node? output
  match node.inputIndex? "Displacement", node.inputIndex? "Normal" with
  | some displacement, some normal =>
    match net.inputLink? output displacement with
    | some source =>
      let added := net.addNode (.ofKind (.bumpFromDisplacement useObjectSpace))
      let net ← added.2.wire? source added.1 0
      net.wire? (added.1, 0) output normal
    | none => return net
  | _, _ => return net

def feedWeight? (net : Network) (id : NodeId) (input : Nat) (weight : Weight)
    (constant : Float32) : Option Network :=
  match weight with
  | some source => net.wire? source id input
  | none => some (net.setValue id input (.float constant))

def splitWeight? (net : Network) (id : NodeId) (node : Node) (weight : Weight) :
    Option (Network × Weight × Weight) :=
  match node.inputIndex? "Fac" with
  | none => some (net, weight, weight)
  | some factor => do
    let added := net.addNode (.ofKind .mixClosureWeight)
    let fed ← added.2.feedWeight? added.1 1 (net.inputLink? id factor) (node.float "Fac")
    let split ← match weight with
      | some source => fed.wire? source added.1 0
      | none => some fed
    return (split, some (added.1, 0), some (added.1, 1))

/-- `addWeight` for an input that has to be there, with checked links. -/
def addWeight? (net : Network) (id : NodeId) (node : Node) (input : Nat) (weight : Weight) :
    Option Network := do
  let socket ← node.inputs[input]?
  let held := socket.value.float?.getD 0
  let source := net.inputLink? id input
  if source.isSome || held != 0 then
    let added := net.addNode (.ofKind (.math .add false))
    let first ← added.2.feedWeight? added.1 0 source held
    let second ← first.feedWeight? added.1 1 weight 1
    (if source.isSome then second.unlink id input else second).wire? (added.1, 0) id input
  else net.feedWeight? id input weight (held + 1)

/-- `distribute` for nodes that have to be there, and a tree that has to be as low as the bound. -/
def distribute? (volume : Bool) : Nat → Network → NodeId → Weight → Option Network
  | 0, _, _, _ => none
  | fuel + 1, net, id, weight => do
    let node ← net.node? id
    if node.kind.special = .combineClosure then
      let first := (node.inputIndex? "Closure1").bind (net.inputLink? id)
      let second := (node.inputIndex? "Closure2").bind (net.inputLink? id)
      let split ← net.splitWeight? id node weight
      let left ← first.elim (some split.1) fun a => distribute? volume fuel split.1 a.1 split.2.1
      second.elim (some left) fun a => distribute? volume fuel left a.1 split.2.2
    else
      match node.weightIndex? volume with
      | some input => net.addWeight? id node input weight
      | none => some net

def distributeFrom? (net : Network) (output : NodeId) (terminal : String) (volume : Bool) :
    Option Network :=
  match net.inputLinkByName? output terminal with
  | some (root, _) => distribute? volume (net.nodeCount + 1) net root none
  | none => some net

def unweighed? (net : Network) (output : NodeId) (options : FinalizeOptions) : Option Network := do
  let folded ← foldRounds? (net.linkCount * (net.nodeCount + 1) + 1) net
  let pruned ← folded.removeUnreachable? output
  if options.doBump then pruned.bumpFromDisplacement? output options.bumpInObjectSpace
  else return pruned

def Offers (net : Network) (a : NodeId × Nat) : Prop :=
  ∃ f, net.form? a.1 = some f ∧ a.2 < f.outputs.length

/-- The node is there, and no closures are looked for behind it. -/
def IsPlain (net : Network) (n : NodeId) : Prop := ∃ f, net.form? n = some f ∧ f.IsPlain

/-- Vacated numbers are free, and links start at outputs and end at nodes that are there. -/
structure Intact (net : Network) : Prop where
  spaced : net.Spaced
  offers : ∀ {a b}, net.Feeds a b → net.Offers a
  target : ∀ {a b}, net.Feeds a b → net.contains b.1 = true

lemma contains_iff : net.contains n = true ↔ ∃ f, net.form? n = some f := by
  rw [contains, isSome_iff_exists, form?]
  constructor
  · rintro ⟨node, hn⟩
    exact ⟨node.form, by rw [hn, map_some]⟩
  · rintro ⟨f, hf⟩
    obtain ⟨node, hn, _⟩ := map_eq_some_iff.1 hf
    exact ⟨node, hn⟩

lemma contains_iff_mem_ids : net.contains n = true ↔ n ∈ net.ids := by
  rw [contains, isSome_iff_exists, mem_ids]

lemma contains_of_node? (h : net.node? n = some node) : net.contains n = true := by
  rw [contains, h, isSome_some]

lemma Offers.contains (h : net.Offers a) : net.contains a.1 = true := by
  obtain ⟨f, hf, _⟩ := h
  exact contains_iff.2 ⟨f, hf⟩

lemma IsPlain.contains (h : net.IsPlain n) : net.contains n = true := by
  obtain ⟨f, hf, _⟩ := h
  exact contains_iff.2 ⟨f, hf⟩

lemma Extends.offers (h : net.Extends net') (ha : net.Offers a) : net'.Offers a := by
  obtain ⟨f, hf, hlt⟩ := ha
  exact ⟨f, h.form hf, hlt⟩

lemma Extends.contains (h : net.Extends net') (hn : net.contains n = true) :
    net'.contains n = true := by
  obtain ⟨f, hf⟩ := contains_iff.1 hn
  exact contains_iff.2 ⟨f, h.form hf⟩

lemma Extends.isPlain (h : net.Extends net') (hn : net.IsPlain n) : net'.IsPlain n := by
  obtain ⟨f, hf, hp⟩ := hn
  exact ⟨f, h.form hf, hp⟩

lemma wire?_eq (hs : net.contains source.1 = true) (ht : net.contains target = true) (input : Nat) :
    net.wire? source target input = some (net.link source target input) := by
  rw [wire?, hs, ht]
  rfl

lemma feeds_of_sublist (h : net'.links.Sublist net.links)
    (hab : net'.Feeds a b) : net.Feeds a b := by
  obtain ⟨l, hl, hs, ht⟩ := hab
  exact ⟨l, h.subset hl, hs, ht⟩

/-- A new link ends at the node it was made for.  Its number of the output may be cut off, to one
that is no larger. -/
lemma feeds_link_cases {input : Nat} (h : (net.link source target input).Feeds a b) :
    net.Feeds a b ∨ a.1 = source.1 ∧ a.2 ≤ source.2 ∧ b.1 = target := by
  rcases feeds_addLink.1 h with ⟨rfl, rfl⟩ | h
  · refine .inr ⟨rfl, ?_, rfl⟩
    rw [UInt16.toNat_ofNat']
    exact Nat.mod_le ..
  · exact .inl (feeds_of_sublist (links_unlink_sublist ..) h)

lemma Offers.of_le (h : net.Offers b) (hn : a.1 = b.1) (hle : a.2 ≤ b.2) : net.Offers a := by
  obtain ⟨f, hf, hlt⟩ := h
  exact ⟨f, by rw [hn, hf], hle.trans_lt hlt⟩

section

variable (h : net.Intact)
include h

lemma Intact.of_extends (he : net.Extends net')
    (hf : ∀ {a b}, net'.Feeds a b → net.Feeds a b ∨ net'.Offers a ∧ net'.contains b.1 = true) :
    net'.Intact := by
  refine ⟨he.spaced, fun hab => ?_, fun hab => ?_⟩
  · rcases hf hab with hab | hab
    · exact he.offers (h.offers hab)
    · exact hab.1
  · rcases hf hab with hab | hab
    · exact he.contains (h.target hab)
    · exact hab.2

lemma Intact.of_sublist (he : net.Extends net') (hs : net'.links.Sublist net.links) : net'.Intact :=
  h.of_extends he fun hab => .inl (feeds_of_sublist hs hab)

lemma Intact.link (hs : net.Offers source) (ht : net.contains target = true) (input : Nat) :
    (net.link source target input).Intact := by
  have he := h.spaced.link source target input
  refine h.of_extends he fun hab => ?_
  rcases feeds_link_cases hab with hab | ⟨hn, hle, hb⟩
  · exact .inl hab
  · exact .inr ⟨he.offers (hs.of_le hn hle), hb ▸ he.contains ht⟩

/-! ## Folding -/

lemma Intact.removeOutgoing (id : NodeId) : (net.removeOutgoing id).Intact :=
  h.of_sublist (h.spaced.removeOutgoing id) ((links_removeOutgoing_sublist id).trans filter_sublist)

lemma Intact.foldNode (id : NodeId) : (net.foldNode id).1.Intact := by
  refine (foldNode_induction (P := fun cur => cur.Intact ∧ net.Extends cur) ⟨h, h.spaced.refl⟩
    (fun {cur b _ _ v} hcur _ _ _ => ?_) ⟨h.removeOutgoing id, h.spaced.removeOutgoing id⟩
    fun {cur _ a c} hcur _ _ ha hc => ?_).1
  · have hset := hcur.1.spaced.setValue b.1 b.2 v
    have he := hset.trans (hset.spaced.unlink b.1 b.2)
    exact ⟨hcur.1.of_sublist he (links_unlink_sublist ..), hcur.2.trans he⟩
  · exact ⟨hcur.1.link (hcur.2.offers (h.offers ha)) (hcur.2.contains (h.target hc)) c.2,
      hcur.2.trans (hcur.1.spaced.link ..)⟩

omit h in
/-- A loop that may fail does not, as long as what it needs is kept. -/
lemma foldlM_eq_some {α β : Type} {f : β → α → Option β} {g : β → α → β} (I : β → Prop)
    {l : List α} (hstep : ∀ b, ∀ a ∈ l, I b → f b a = some (g b a) ∧ I (g b a)) {b : β} (hb : I b) :
    l.foldlM f b = some (l.foldl g b) ∧ I (l.foldl g b) := by
  induction l generalizing b with
  | nil => exact ⟨rfl, hb⟩
  | cons a l ih =>
    obtain ⟨ha, hkept⟩ := hstep b a mem_cons_self hb
    rw [foldlM_cons, ha]
    exact ih (fun b c hc => hstep b c (mem_cons_of_mem _ hc)) hkept

lemma Intact.foldNode?_eq (hid : net.contains id = true) :
    net.foldNode? id = some (net.foldNode id) := by
  obtain ⟨node, hn⟩ := isSome_iff_exists.1 hid
  unfold foldNode? Network.foldNode
  rw [hn]
  simp only [bind_eq_bind, bind_some]
  cases net.foldOf id node with
  | keep | constant _ | discard => rfl
  | bypass input =>
    dsimp only [bypass?, bypass]
    cases hsource : net.inputLink? id input with
    | none => rfl
    | some source =>
      have he := h.spaced.removeOutgoing id
      dsimp only
      rw [(foldlM_eq_some (fun cur : Network => ∀ n, net.contains n = true → cur.contains n = true)
        (fun cur c hc hcur => ?_) fun n hn => he.contains hn).1]
      · rfl
      · refine ⟨wire?_eq (hcur _ (h.offers (feeds_of_inputLink? hsource)).contains)
          (hcur _ (h.target (mem_outputLinks.1 hc))) _, fun n hn => ?_⟩
        rw [contains, node?_link]
        exact hcur n hn

lemma Intact.foldRound : net.foldRound? = some net.foldRound ∧ net.foldRound.1.Intact := by
  rw [foldRound?, foldRound_eq]
  refine (foldlM_eq_some (b := (net, 0))
    (fun acc => acc.1.Intact ∧ ∀ id ∈ net.ids, acc.1.contains id = true)
    (fun acc id hid hacc => ⟨?_, hacc.1.foldNode id, fun n hn => ?_⟩)
    ⟨h, fun id hid => contains_iff_mem_ids.2 hid⟩).imp_right And.left
  · rw [hacc.1.foldNode?_eq (hacc.2 id hid)]
    rfl
  · exact (hacc.1.spaced.foldNode id).contains (hacc.2 n hn)

/-- Rounds change nothing in the end, if there may be as many of them as links can move. -/
lemma Intact.foldRounds (hr : net.Ranked rank) (hfuel : net.slack rank < fuel) :
    foldRounds? fuel net = some (foldRounds fuel net) ∧
      (foldRounds fuel net).Intact ∧ (foldRounds fuel net).Ranked rank := by
  induction fuel generalizing net with
  | zero => exact absurd hfuel (Nat.not_lt_zero _)
  | succ fuel ih =>
    obtain ⟨heq, hround⟩ := h.foldRound
    have hprogress := foldRound_progress hr.climbs fun _ _ => trivial
    have hranked : net.foldRound.1.Ranked rank := fun l hl => hprogress.climbs l hl trivial
    unfold foldRounds? foldRounds
    rw [heq]
    simp only [bind_eq_bind, bind_some]
    split
    · exact ⟨rfl, hround, hranked⟩
    · rename_i hne
      exact ih hround hranked (lt_of_lt_of_le (hprogress.lt hne) (Nat.le_of_lt_succ hfuel))

/-! ## Pruning -/

omit h in
lemma lt_bound (h : id ∈ net.ids) : id < net.bound := by
  have hsorted : net.ids.Pairwise (· < ·) := List.Pairwise.filter _ pairwise_lt_range
  unfold bound
  rcases eq_nil_or_concat net.ids with hnil | ⟨init, last, hids⟩
  · rw [hnil] at h
    cases h
  · rw [hids] at hsorted h ⊢
    rw [concat_eq_append] at hsorted h ⊢
    rw [getLast?_concat]
    rcases mem_append.1 h with hinit | hlast
    · exact Nat.lt_succ_of_lt ((pairwise_append.1 hsorted).2.2 id hinit last mem_cons_self)
    · obtain rfl := mem_singleton.1 hlast
      exact Nat.lt_succ_self id

omit h in
lemma feeds_removeUnreachable (h : (net.removeUnreachable output).Feeds a b) :
    net.Feeds a b ∧ (net.contains a.1 = true → a.1 ∈ net.kept output) ∧
      (net.contains b.1 = true → b.1 ∈ net.kept output) := by
  have key : ∀ (ids : List NodeId) (cur : Network) (l : Nat × Link),
      l ∈ (ids.foldl removeNode cur).links →
        l ∈ cur.links ∧ ∀ id ∈ ids, l.2.source ≠ id ∧ l.2.target ≠ id := by
    intro ids
    induction ids with
    | nil => exact fun cur l hl => ⟨hl, fun id hid => by cases hid⟩
    | cons id ids ih =>
      intro cur l hl
      obtain ⟨hl, hids⟩ := ih (cur.removeNode id) l hl
      obtain ⟨hl, hid⟩ := links_removeNode cur id l hl
      refine ⟨hl, fun n hn => ?_⟩
      rcases mem_cons.1 hn with rfl | hn
      · exact hid
      · exact hids n hn
  obtain ⟨l, hl, rfl, rfl⟩ := h
  obtain ⟨hl, hids⟩ := key _ net l hl
  have hkept : ∀ n, net.contains n = true → (l.2.source = n ∨ l.2.target = n) →
      n ∈ net.kept output := by
    intro n hn hend
    by_contra hnot
    have hdead := hids n (mem_filter.2 ⟨contains_iff_mem_ids.1 hn, by simpa [kept] using hnot⟩)
    rcases hend with hs | ht
    · exact hdead.1 hs
    · exact hdead.2 ht
  exact ⟨⟨l, hl, rfl, rfl⟩, fun hn => hkept _ hn (.inl rfl), fun hn => hkept _ hn (.inr rfl)⟩

lemma Intact.removeUnreachable (ho : net.contains output = true) :
    net.removeUnreachable? output = some (net.removeUnreachable output) ∧
      (net.removeUnreachable output).Intact := by
  obtain ⟨hspaced, hnode⟩ := h.spaced.removeUnreachable output
  have hform : ∀ n ∈ net.kept output, (net.removeUnreachable output).form? n = net.form? n :=
    fun n hn => form?_congr ((hnode n).trans (if_pos hn))
  constructor
  · refine if_pos (all_eq_true.2 fun n hn => decide_eq_true ?_)
    rcases mem_cons.1 hn with rfl | hn
    · exact lt_bound (contains_iff_mem_ids.1 ho)
    · obtain ⟨m, _, hn⟩ := mem_flatMap.1 hn
      obtain ⟨o, i, hfeeds⟩ := mem_predecessors.1 hn
      exact lt_bound (contains_iff_mem_ids.1 (h.offers hfeeds).contains)
  · refine ⟨hspaced, fun {a b} hab => ?_, fun {a b} hab => ?_⟩
    · obtain ⟨hab, ha, _⟩ := feeds_removeUnreachable hab
      obtain ⟨f, hf, hlt⟩ := h.offers hab
      exact ⟨f, (hform _ (ha (contains_iff.2 ⟨f, hf⟩))).trans hf, hlt⟩
    · obtain ⟨hab, _, hb⟩ := feeds_removeUnreachable hab
      obtain ⟨f, hf⟩ := contains_iff.1 (h.target hab)
      exact contains_iff.2 ⟨f, (hform _ (hb (contains_iff.2 ⟨f, hf⟩))).trans hf⟩

end

/-! ## Mixes and sums stay ranked -/

/-- An intact network in which closures are looked for at nodes of lower rank only, or at nodes
behind which no more are looked for. -/
structure Laid (rank : NodeId → Nat) (net : Network) : Prop extends Intact net where
  layered : ∀ {a b f}, net.Feeds a b → net.form? b.1 = some f → f.Gathers b.2 →
    net.IsPlain a.1 ∨ rank a.1 < rank b.1

/-- The output that carries a weight is there, and it carries no closure. -/
def Bears (net : Network) (weight : Weight) : Prop :=
  ∀ a, weight = some a → net.Offers a ∧ net.IsPlain a.1

lemma bears_none : net.Bears none := fun a ha => by cases ha

lemma Extends.bears (h : net.Extends net') (hw : net.Bears weight) : net'.Bears weight :=
  fun a ha => ⟨h.offers (hw a ha).1, h.isPlain (hw a ha).2⟩

/-- The depth that is left is enough for the tree below a node. -/
def Deep (net : Network) (rank : NodeId → Nat) (fuel : Nat) (n : NodeId) : Prop :=
  rank n + 2 ≤ fuel ∨ net.IsPlain n ∧ 0 < fuel

lemma Extends.deep (h : net.Extends net') (hd : net.Deep rank fuel n) :
    net'.Deep rank fuel n := hd.imp_right (And.imp_left h.isPlain)

namespace Laid

variable (h : net.Laid rank)
include h

/-- Links that are added have on one of their sides a node behind which no closures are looked
for. -/
lemma of_extends (he : net.Extends net')
    (hf : ∀ {a b}, net'.Feeds a b → net.Feeds a b ∨
      net'.Offers a ∧ net'.contains b.1 = true ∧ (net'.IsPlain a.1 ∨ net'.IsPlain b.1)) :
    net'.Laid rank := by
  refine ⟨h.toIntact.of_extends he fun hab => (hf hab).imp_right fun hnew => ⟨hnew.1, hnew.2.1⟩,
    fun {a b f} hab hform hgathers => ?_⟩
  rcases hf hab with hab | ⟨_, _, hplain | ⟨g, hg, hplain⟩⟩
  · obtain ⟨g, hg⟩ := contains_iff.1 (h.target hab)
    obtain rfl : g = f := some.inj ((he.form hg).symm.trans hform)
    exact (h.layered hab hg hgathers).imp_left he.isPlain
  · exact .inl hplain
  · obtain rfl : g = f := some.inj (hg.symm.trans hform)
    exact absurd hgathers (hplain _)

lemma of_sublist (he : net.Extends net')
    (hs : net'.links.Sublist net.links) : net'.Laid rank :=
  h.of_extends he fun hab => .inl (feeds_of_sublist hs hab)

/-- A new node behind which no closures are looked for. -/
lemma addNode {k : NodeKind} (hk : k ≠ .output) (hs : k.special ≠ .combineClosure)
    (hc : k.handlesClosures = false) :
    let added := net.addNode (.ofKind k)
    added.2.Laid rank ∧ net.Extends added.2 ∧
      added.2.form? added.1 = some (Node.ofKind k).form ∧ added.2.IsPlain added.1 := by
  have he := h.spaced.extends_addNode hk
  have hform := h.spaced.form?_addNode_fst (.ofKind k)
  exact ⟨h.of_extends he fun hab => .inl ((feeds_addNode ..).1 hab), he, hform, _, hform,
    Node.isPlain_ofKind hs hc⟩

lemma link (hs : net.Offers source) (ht : net.contains target = true)
    (hp : net.IsPlain source.1 ∨ net.IsPlain target) (input : Nat) :
    net.wire? source target input = some (net.link source target input) ∧
      (net.link source target input).Laid rank := by
  have he := h.spaced.link source target input
  refine ⟨wire?_eq hs.contains ht input, h.of_extends he fun hab => ?_⟩
  rcases feeds_link_cases hab with hab | ⟨hn, hle, hb⟩
  · exact .inl hab
  · rw [hn, hb]
    exact .inr ⟨he.offers (hs.of_le hn hle), he.contains ht, hp.imp he.isPlain he.isPlain⟩

/-! ## The normal -/

lemma bumpFromDisplacement (ho : net.contains output = true) (useObjectSpace : Bool) :
    net.bumpFromDisplacement? output useObjectSpace =
        some (net.bumpFromDisplacement output useObjectSpace) ∧
      (net.bumpFromDisplacement output useObjectSpace).Laid rank := by
  obtain ⟨node, hn⟩ := isSome_iff_exists.1 ho
  unfold bumpFromDisplacement? Network.bumpFromDisplacement
  rw [hn]
  simp only [bind_eq_bind, bind_some]
  cases node.inputIndex? "Displacement" with
  | none => exact ⟨rfl, h⟩
  | some displacement =>
    cases node.inputIndex? "Normal" with
    | none => exact ⟨rfl, h⟩
    | some normal =>
      dsimp only
      cases hsource : net.inputLink? output displacement with
      | none => exact ⟨rfl, h⟩
      | some source =>
        obtain ⟨hadd, he, hform, hplain⟩ := h.addNode (k := .bumpFromDisplacement useObjectSpace)
          NodeKind.noConfusion SpecialType.noConfusion rfl
        set bump : Node := .ofKind (.bumpFromDisplacement useObjectSpace)
        obtain ⟨heq, hlink⟩ := hadd.link (he.offers (h.offers (feeds_of_inputLink? hsource)))
          hplain.contains (.inr hplain) 0
        have he' := hadd.spaced.link source (net.addNode bump).1 0
        have hoffers : (net.addNode bump).2.Offers ((net.addNode bump).1, 0) :=
          ⟨_, hform, Nat.zero_lt_one⟩
        obtain ⟨heq', hlink'⟩ := hlink.link (he'.offers hoffers) (he'.contains (he.contains ho))
          (.inl (he'.isPlain hplain)) normal
        dsimp only
        rw [heq, bind_some, heq']
        exact ⟨rfl, hlink'⟩

/-! ## Weights -/

lemma feedWeight (hid : net.contains id = true)
    (hw : ∀ a, weight = some a → net.Offers a ∧ (net.IsPlain a.1 ∨ net.IsPlain id)) (input : Nat)
    (constant : Float32) :
    net.feedWeight? id input weight constant = some (net.feedWeight id input weight constant) ∧
      (net.feedWeight id input weight constant).Laid rank := by
  cases weight with
  | some source => exact h.link (hw source rfl).1 hid (hw source rfl).2 input
  | none => exact ⟨rfl, h.of_sublist (h.spaced.setValue ..) (Sublist.refl _)⟩

/-- What an input receives may be handed to a node behind which no closures are looked for. -/
lemma feedInput {net' : Network} (h' : net'.Laid rank)
    (he : net.Extends net') (hn : net'.IsPlain n) (id : NodeId) (i input : Nat)
    (constant : Float32) :
    net'.feedWeight? n input (net.inputLink? id i) constant =
        some (net'.feedWeight n input (net.inputLink? id i) constant) ∧
      (net'.feedWeight n input (net.inputLink? id i) constant).Laid rank :=
  h'.feedWeight hn.contains (fun _ ha => ⟨he.offers (h.offers (feeds_of_inputLink? ha)), .inr hn⟩) ..

lemma splitWeight (id : NodeId) (node : Node) (hw : net.Bears weight) :
    net.splitWeight? id node weight = some (net.splitWeight id node weight) ∧
      (net.splitWeight id node weight).1.Laid rank ∧
      (net.splitWeight id node weight).1.Bears (net.splitWeight id node weight).2.1 ∧
      (net.splitWeight id node weight).1.Bears (net.splitWeight id node weight).2.2 := by
  unfold splitWeight? Network.splitWeight
  cases node.inputIndex? "Fac" with
  | none => exact ⟨rfl, h, hw, hw⟩
  | some factor =>
    dsimp only
    obtain ⟨hadd, he, hform, hplain⟩ := h.addNode (k := .mixClosureWeight) NodeKind.noConfusion
      SpecialType.noConfusion rfl
    set mix : Node := .ofKind .mixClosureWeight
    have hbears : ∀ {net' : Network}, (net.addNode mix).2.Extends net' → ∀ o < 2,
        net'.Bears (some ((net.addNode mix).1, o)) := by
      rintro net' he' o ho a ⟨⟩
      exact ⟨he'.offers ⟨_, hform, ho⟩, he'.isPlain hplain⟩
    obtain ⟨heq, hfed⟩ := h.feedInput hadd he hplain id factor 1 (node.float "Fac")
    have he' := hadd.spaced.feedWeight (net.addNode mix).1 1 (net.inputLink? id factor)
      (node.float "Fac")
    rw [heq]
    simp only [bind_eq_bind, bind_some]
    cases weight with
    | none => exact ⟨rfl, hfed, hbears he' 0 (by decide), hbears he' 1 (by decide)⟩
    | some source =>
      have hfed' := he'.trans (hfed.spaced.link source (net.addNode mix).1 0)
      obtain ⟨heq', hlink⟩ := hfed.link (he'.offers (he.offers (hw source rfl).1))
        (he'.contains hplain.contains) (.inr (he'.isPlain hplain)) 0
      dsimp only
      rw [heq']
      exact ⟨rfl, hlink, hbears hfed' 0 (by decide), hbears hfed' 1 (by decide)⟩

lemma addWeight (hid : net.contains id = true)
    {input : Nat} (hi : input < node.inputs.length) (hw : net.Bears weight) :
    net.addWeight? id node input weight = some (net.addWeight id node input weight) ∧
      (net.addWeight id node input weight).Laid rank := by
  obtain ⟨socket, hsocket⟩ : ∃ socket, node.inputs[input]? = some socket :=
    ⟨_, getElem?_eq_getElem hi⟩
  unfold addWeight? Network.addWeight
  rw [hsocket]
  simp only [bind_eq_bind, bind_some]
  split
  · -- The sum takes what the input received and the new weight, and feeds the input in their place.
    obtain ⟨hadd, he, hform, hplain⟩ := h.addNode (k := .math .add false) NodeKind.noConfusion
      SpecialType.noConfusion rfl
    set sum : Node := .ofKind (.math .add false)
    obtain ⟨heq, hfirst⟩ := h.feedInput hadd he hplain id input 0 (socket.value.float?.getD 0)
    have he' := hadd.spaced.feedWeight (net.addNode sum).1 0 (net.inputLink? id input)
      (socket.value.float?.getD 0)
    rw [heq]
    set first := (net.addNode sum).2.feedWeight (net.addNode sum).1 0 (net.inputLink? id input)
      (socket.value.float?.getD 0)
    have hw' : ∀ a, weight = some a → first.Offers a ∧
        (first.IsPlain a.1 ∨ first.IsPlain (net.addNode sum).1) := fun a ha =>
      (he'.bears (he.bears hw) a ha).imp_right .inl
    obtain ⟨heq', hsecond⟩ := hfirst.feedWeight (he'.contains hplain.contains) hw' 1 1
    have he'' := he'.trans (hfirst.spaced.feedWeight (net.addNode sum).1 1 weight 1)
    rw [bind_some, heq', bind_some]
    set second := first.feedWeight (net.addNode sum).1 1 weight 1
    have hcut : second.Extends
        (if (net.inputLink? id input).isSome then second.unlink id input else second) ∧
        (if (net.inputLink? id input).isSome then second.unlink id input else second).links.Sublist
          second.links := by
      split
      · exact ⟨hsecond.spaced.unlink .., links_unlink_sublist ..⟩
      · exact ⟨hsecond.spaced.refl, Sublist.refl _⟩
    have hlast := he''.trans hcut.1
    exact (hsecond.of_sublist hcut.1 hcut.2).link (hlast.offers ⟨_, hform, Nat.zero_lt_one⟩)
      (hlast.contains (he.contains hid)) (.inl (hlast.isPlain hplain)) input
  · exact h.feedWeight hid (fun a ha => ⟨(hw a ha).1, .inl (hw a ha).2⟩) ..

/-- What a node that combines closures receives is lower. -/
lemma deep_of_feeds (hn : net.node? id = some node)
    (hc : node.kind.special = .combineClosure) {i : Nat}
    (hd : net.Deep rank (fuel + 1) id) (ha : net.inputLink? id i = some a) :
    net.Deep rank fuel a.1 := by
  have hform := form?_of_node? hn
  have hrank : rank id + 2 ≤ fuel + 1 := by
    rcases hd with hd | ⟨⟨f, hf, hplain⟩, _⟩
    · exact hd
    · obtain rfl : node.form = f := some.inj (hform.symm.trans hf)
      exact absurd (.inl hc) (hplain 0)
  rcases h.layered (feeds_of_inputLink? ha) hform (.inl hc) with hplain | hlt
  · exact .inr ⟨hplain, by omega⟩
  · exact .inl (by have : rank a.1 < rank id := hlt; omega)

lemma distribute (volume : Bool) (hid : net.contains id = true) (hw : net.Bears weight)
    (hd : net.Deep rank fuel id) :
    distribute? volume fuel net id weight = some (distribute volume fuel net id weight) ∧
      (distribute volume fuel net id weight).Laid rank := by
  induction fuel generalizing net id weight with
  | zero =>
    rcases hd with hd | hd
    · exact absurd hd (by omega)
    · exact absurd hd.2 (Nat.lt_irrefl 0)
  | succ fuel ih =>
    obtain ⟨node, hn⟩ := isSome_iff_exists.1 hid
    unfold distribute? distribute
    rw [hn]
    simp only [bind_eq_bind, bind_some]
    split
    · rename_i hc
      obtain ⟨heq, hsplit, hw1, hw2⟩ := h.splitWeight id node hw
      have he := h.spaced.splitWeight id node weight
      rw [heq, bind_some]
      -- One side: what feeds it is there and low enough, whatever the other side has added.
      have side : ∀ {name : String} {a : NodeId × Nat} {cur : Network} {w : Weight},
          (node.inputIndex? name).bind (net.inputLink? id) = some a → net.Extends cur →
          cur.Laid rank → cur.Bears w →
          distribute? volume fuel cur a.1 w = some (distribute volume fuel cur a.1 w) ∧
            (distribute volume fuel cur a.1 w).Laid rank := by
        intro name a cur w hside hext hcur hbears
        obtain ⟨i, _, ha⟩ := bind_eq_some_iff.1 hside
        exact ih hcur (hext.contains (h.offers (feeds_of_inputLink? ha)).contains) hbears
          (hext.deep (h.deep_of_feeds hn hc hd ha))
      cases hfirst : (node.inputIndex? "Closure1").bind (net.inputLink? id) with
      | none =>
        cases hsecond : (node.inputIndex? "Closure2").bind (net.inputLink? id) with
        | none => exact ⟨rfl, hsplit⟩
        | some b => exact side hsecond he hsplit hw2
      | some a =>
        obtain ⟨hleft, hlaid⟩ := side hfirst he hsplit hw1
        have hext := hsplit.spaced.distribute volume fuel a.1 (net.splitWeight id node weight).2.1
        rw [elim_some, hleft, bind_some]
        cases hsecond : (node.inputIndex? "Closure2").bind (net.inputLink? id) with
        | none => exact ⟨rfl, hlaid⟩
        | some b => exact side hsecond (he.trans hext) hlaid (hext.bears hw2)
    · cases hi : node.weightIndex? volume with
      | none => exact ⟨rfl, h⟩
      | some input =>
        exact h.addWeight hid (findIdx?_eq_some_iff_getElem.1 hi).1 hw

/-- Ranks need not be higher than there are nodes. -/
lemma exists_low :
    ∃ low, net.Laid low ∧ ∀ n, net.contains n = true → low n < net.nodeCount := by
  obtain ⟨low, hlow, _, _, hlt⟩ := net.exists_rank_le rank
  refine ⟨low, ⟨h.toIntact, fun hab hf hg => ?_⟩, fun n hn => hlt n (contains_iff_mem_ids.1 hn)⟩
  exact (h.layered hab hf hg).imp_right (hlow (contains_iff_mem_ids.1 (h.offers hab).contains))

lemma distributeFrom (output : NodeId) (terminal : String) (volume : Bool) :
    net.distributeFrom? output terminal volume = some (net.distributeFrom output terminal volume) ∧
      ∃ low, (net.distributeFrom output terminal volume).Laid low := by
  unfold distributeFrom? Network.distributeFrom
  cases hroot : net.inputLinkByName? output terminal with
  | none => exact ⟨rfl, rank, h⟩
  | some root =>
    obtain ⟨i, hfeeds⟩ := feeds_of_inputLinkByName? hroot
    obtain ⟨low, hlow, hlt⟩ := h.exists_low
    have hin := (h.offers hfeeds).contains
    have hdeep : net.Deep low (net.nodeCount + 1) root.1 := by
      have := hlt root.1 hin
      exact .inl (by omega)
    obtain ⟨heq, hlaid⟩ := hlow.distribute volume hin bears_none hdeep
    exact ⟨heq, low, hlaid⟩

end Laid

/-! ## Preparation -/

lemma Intact.laid (h : net.Intact) (hr : net.Ranked rank) : net.Laid rank :=
  ⟨h, fun hab _ _ => .inr (hr.feeds hab)⟩

lemma Intact.unweighed (h : net.Intact) (hr : net.Ranked rank) (ho : net.contains output = true)
    (options : FinalizeOptions) :
    net.unweighed? output options = some (net.unweighed output options) ∧
      ∃ low, (net.unweighed output options).Laid low := by
  obtain ⟨low, hlow, _, hle, _⟩ := net.exists_rank_le rank
  have hr' : net.Ranked low := fun l hl => by
    have hfeeds : net.Feeds (l.2.source, l.2.output.toNat) (l.2.target, l.2.input.toNat) :=
      ⟨l, hl, rfl, rfl⟩
    exact hlow (contains_iff_mem_ids.1 (h.offers hfeeds).contains) (hr l hl)
  obtain ⟨hfold, hintact, hranked⟩ := h.foldRounds hr' (Nat.lt_succ_of_le (slack_le hle))
  set folded := Network.foldRounds (net.linkCount * (net.nodeCount + 1) + 1) net
  have hout : folded.contains output = true := (h.spaced.foldRounds _).contains ho
  obtain ⟨hprune, hpruned⟩ := hintact.removeUnreachable hout
  have hkeeps : (folded.removeUnreachable output).contains output = true := by
    obtain ⟨f, hf⟩ := contains_iff.1 hout
    exact contains_iff.2 ⟨f, hintact.spaced.form?_removeUnreachable.trans hf⟩
  have hlaid : (folded.removeUnreachable output).Laid low :=
    hpruned.laid fun l hl => hranked.feeds (feeds_removeUnreachable ⟨l, hl, rfl, rfl⟩).1
  unfold unweighed?
  rw [hfold]
  simp only [bind_eq_bind, bind_some]
  rw [hprune, bind_some]
  change _ = some (if options.doBump then _ else _) ∧ ∃ low, Laid low (if options.doBump then _ else _)
  split
  · obtain ⟨hbump, hbumped⟩ := hlaid.bumpFromDisplacement hkeeps options.bumpInObjectSpace
    exact ⟨hbump, low, hbumped⟩
  · exact ⟨rfl, low, hlaid⟩

end Network

end Shading
