import Mathlib.Tactic
import Shading.Network.Path

/-!
# What the operations on networks do

A network is seen through two functions: `node?`, the node with a number, and the relation `Feeds`,
which joins an output to an input.  Numbers of links, the order of links and the lists of vacated
numbers are bookkeeping.  `Tidy` says that the bookkeeping is in order and that no input has two
links; every operation keeps it, and on a tidy network each operation does to the view what its
name says.  The proofs about graphs use the view only.
-/

namespace Shading.Network

open List

variable {id target : NodeId} {input k : Nat} {source : NodeId × Nat} {node : Node}
  {l : List (NodeId × Nat)}

/-! ## The view -/

/-- An output, given by node and position, feeds an input. -/
def Feeds (net : Network) (source target : NodeId × Nat) : Prop :=
  ∃ l ∈ net.links, (l.2.source, l.2.output.toNat) = source ∧ (l.2.target, l.2.input.toNat) = target

/-- Vacated numbers are free, and none is listed twice. -/
structure Spaced (net : Network) : Prop where
  lt : ∀ id ∈ net.vacant, id < net.nodes.size
  free : ∀ id ∈ net.vacant, net.node? id = none
  nodup : net.vacant.Nodup

/-- No link number is used twice, and vacated ones are free. -/
structure Counted (net : Network) : Prop where
  numbers : (net.links.map Prod.fst).Nodup
  number_lt : ∀ l ∈ net.links, l.1 < net.linkBound
  vacant_lt : ∀ k ∈ net.vacantLinks, k < net.linkBound
  vacant_free : ∀ k ∈ net.vacantLinks, k ∉ net.links.map Prod.fst
  vacant_nodup : net.vacantLinks.Nodup

/-- The bookkeeping of a network is in order, and no input has two links. -/
structure Tidy (net : Network) : Prop extends Spaced net, Counted net where
  single : ∀ l ∈ net.links, ∀ m ∈ net.links,
    (l.2.target, l.2.input.toNat) = (m.2.target, m.2.input.toNat) → l = m

variable {net net' : Network}

lemma Spaced.of_nodes (h : net.Spaced) (hn : net'.nodes = net.nodes)
    (hv : net'.vacant = net.vacant) : net'.Spaced := by
  refine ⟨?_, ?_, ?_⟩ <;> simp only [node?, hn, hv]
  exacts [h.lt, h.free, h.nodup]

lemma Counted.of_links (h : net.Counted) (hl : net'.links = net.links)
    (hb : net'.linkBound = net.linkBound) (hv : net'.vacantLinks = net.vacantLinks) :
    net'.Counted := by
  refine ⟨?_, ?_, ?_, ?_, ?_⟩ <;> simp only [hl, hb, hv]
  exacts [h.numbers, h.number_lt, h.vacant_lt, h.vacant_free, h.vacant_nodup]

lemma Counted.eq_of_number (h : net.Counted) {l m : Nat × Link} (hl : l ∈ net.links)
    (hm : m ∈ net.links) (e : l.1 = m.1) : l = m :=
  inj_on_of_nodup_map h.numbers hl hm e

lemma tidy_empty : empty.Tidy := by
  refine ⟨⟨?_, ?_, ?_⟩, ⟨?_, ?_, ?_, ?_, ?_⟩, ?_⟩ <;> simp [empty]

lemma not_feeds_empty (a b : NodeId × Nat) : ¬ empty.Feeds a b := by
  simp [Feeds, empty]

/-- The links into an input are those that feed it, even before anything is known of the network. -/
lemma feeds_of_inputLink? (hl : net.inputLink? id input = some source) :
    net.Feeds source (id, input) := by
  obtain ⟨l, hf, rfl⟩ := Option.map_eq_some_iff.1 hl
  have hp := find?_some hf
  simp only [Bool.and_eq_true, beq_iff_eq] at hp
  exact ⟨l, mem_of_find?_eq_some hf, rfl, by rw [hp.1, hp.2]⟩

/-- What feeds an input is the source of its only link. -/
lemma Tidy.inputLink?_eq_some_iff (h : net.Tidy) :
    net.inputLink? id input = some source ↔ net.Feeds source (id, input) := by
  constructor
  · exact feeds_of_inputLink?
  · rintro ⟨l, hl, rfl, ht⟩
    obtain ⟨hid, hin⟩ := Prod.mk.inj ht
    rw [inputLink?, feed?]
    cases hf : net.links.find? fun l => l.2.target == id && l.2.input.toNat == input with
    | none =>
      have := find?_eq_none.1 hf l hl
      simp [hid, hin] at this
    | some m =>
      have hp := find?_some hf
      simp only [Bool.and_eq_true, beq_iff_eq] at hp
      have := h.single l hl m (mem_of_find?_eq_some hf) (by rw [hid, hin, hp.1, hp.2])
      rw [this, Option.map_some]

lemma Tidy.inputLink?_eq_none_iff (h : net.Tidy) :
    net.inputLink? id input = none ↔ ∀ source, ¬ net.Feeds source (id, input) := by
  rw [Option.eq_none_iff_forall_ne_some]
  exact forall_congr' fun s => not_congr h.inputLink?_eq_some_iff

lemma mem_insertSocket {a x : NodeId × Nat} : x ∈ insertSocket a l ↔ x = a ∨ x ∈ l := by
  induction l with
  | nil => simp [insertSocket]
  | cons b l ih =>
    rw [insertSocket]
    split
    · exact mem_cons
    · rw [mem_cons, ih, mem_cons, or_left_comm]

lemma mem_foldr_insertSocket {x : NodeId × Nat} : x ∈ l.foldr insertSocket [] ↔ x ∈ l := by
  induction l with
  | nil => simp
  | cons a l ih => rw [foldr_cons, mem_insertSocket, ih, mem_cons]

lemma mem_outputLinks {output : Nat} {target : NodeId × Nat} :
    target ∈ net.outputLinks id output ↔ net.Feeds (id, output) target := by
  simp only [outputLinks, outgoing, mem_foldr_insertSocket, mem_map, mem_filter, beq_iff_eq,
    Feeds, Prod.mk.injEq]
  constructor
  · rintro ⟨l, ⟨⟨hl, hs⟩, ho⟩, rfl⟩
    exact ⟨l, hl, ⟨hs, ho⟩, rfl⟩
  · rintro ⟨l, hl, ⟨hs, ho⟩, ht⟩
    exact ⟨l, ⟨⟨hl, hs⟩, ho⟩, ht⟩

lemma isOutputLinked_iff {output : Nat} :
    net.isOutputLinked id output = true ↔ ∃ target, net.Feeds (id, output) target := by
  simp only [isOutputLinked, outgoing, any_eq_true, mem_filter, beq_iff_eq, Feeds, Prod.mk.injEq]
  constructor
  · rintro ⟨l, ⟨hl, hs⟩, ho⟩
    exact ⟨_, l, hl, ⟨hs, ho⟩, rfl⟩
  · rintro ⟨_, l, hl, ⟨hs, ho⟩, _⟩
    exact ⟨l, ⟨hl, hs⟩, ho⟩

lemma mem_successors {b : NodeId} : b ∈ net.successors id ↔ ∃ o i, net.Feeds (id, o) (b, i) := by
  simp only [successors, outgoing, mem_map, mem_filter, beq_iff_eq, Feeds, Prod.mk.injEq]
  constructor
  · rintro ⟨l, ⟨hl, hs⟩, rfl⟩
    exact ⟨_, _, l, hl, ⟨hs, rfl⟩, rfl, rfl⟩
  · rintro ⟨o, i, l, hl, ⟨hs, _⟩, ht, _⟩
    exact ⟨l, ⟨hl, hs⟩, ht⟩

lemma mem_predecessors {a : NodeId} :
    a ∈ net.predecessors id ↔ ∃ o i, net.Feeds (a, o) (id, i) := by
  simp only [predecessors, incoming, mem_map, mem_filter, beq_iff_eq, Feeds, Prod.mk.injEq]
  constructor
  · rintro ⟨l, ⟨hl, hs⟩, rfl⟩
    exact ⟨_, _, l, hl, ⟨rfl, rfl⟩, hs, rfl⟩
  · rintro ⟨o, i, l, hl, ⟨hs, _⟩, ht, _⟩
    exact ⟨l, ⟨hl, ht⟩, hs⟩

lemma node?_eq_some_lt (h : net.node? id = some node) : id < net.nodes.size := by
  by_contra hn
  rw [node?, Array.getElem?_eq_none (Nat.le_of_not_lt hn)] at h
  cases h

lemma mem_ids : id ∈ net.ids ↔ ∃ node, net.node? id = some node := by
  simp only [ids, mem_filter, mem_range, contains, Option.isSome_iff_exists]
  exact ⟨fun h => h.2, fun ⟨node, h⟩ => ⟨node?_eq_some_lt h, node, h⟩⟩

/-! ## Adding and changing nodes -/

lemma node?_of_size_le (h : net.nodes.size ≤ id) : net.node? id = none := by
  rw [node?, Array.getElem?_eq_none h, Option.join_none]

lemma ne_of_node? {x : NodeId} {node : Node} (hx : net.node? x = none)
    (h : net.node? id = some node) : id ≠ x := by
  rintro rfl
  rw [hx] at h
  cases h

/-- The number of a new node was free. -/
lemma Spaced.node?_addNode_fst (h : net.Spaced) (node : Node) :
    net.node? (net.addNode node).1 = none := by
  unfold addNode
  split
  · rename_i id vacant hv
    exact h.free id (by rw [hv]; exact mem_cons_self)
  · exact node?_of_size_le le_rfl

lemma Spaced.node?_addNode (h : net.Spaced) (node : Node) (id : NodeId) :
    (net.addNode node).2.node? id =
      if id = (net.addNode node).1 then some node else net.node? id := by
  unfold addNode
  split
  · rename_i new vacant hv
    have hlt : new < net.nodes.size := h.lt new (by rw [hv]; exact mem_cons_self)
    simp only [node?, Array.getElem?_setIfInBounds]
    by_cases e : id = new
    · simp [e, hlt]
    · rw [if_neg (Ne.symm e), if_neg e]
  · simp only [node?, Array.getElem?_push]
    by_cases e : id = net.nodes.size
    · simp [e]
    · rw [if_neg e, if_neg e]

lemma Spaced.addNode (h : net.Spaced) (node : Node) : (net.addNode node).2.Spaced := by
  have hnode := h.node?_addNode node
  unfold Network.addNode at hnode ⊢
  cases hv : net.vacant with
  | cons id vacant =>
    have hnd : id ∉ vacant ∧ vacant.Nodup := by
      have := h.nodup
      rwa [hv, nodup_cons] at this
    have hsub : ∀ n ∈ vacant, n ∈ net.vacant := fun n hn => by
      rw [hv]
      exact mem_cons_of_mem _ hn
    simp only [hv] at hnode ⊢
    refine ⟨fun n hn => ?_, fun n hn => ?_, hnd.2⟩
    · simpa using h.lt n (hsub n hn)
    · have hne : n ≠ id := fun e => hnd.1 (e ▸ hn)
      rw [hnode n, if_neg hne]
      exact h.free n (hsub n hn)
  | nil => constructor <;> simp

@[simp] lemma links_addNode (node : Node) : (net.addNode node).2.links = net.links := by
  unfold addNode
  split <;> rfl

@[simp] lemma feeds_addNode (node : Node) (a b : NodeId × Nat) :
    (net.addNode node).2.Feeds a b ↔ net.Feeds a b := by
  simp [Feeds]

lemma Counted.addNode (h : net.Counted) (node : Node) : (net.addNode node).2.Counted := by
  unfold Network.addNode
  split <;> exact h.of_links rfl rfl rfl

lemma Tidy.addNode (h : net.Tidy) (node : Node) : (net.addNode node).2.Tidy :=
  ⟨h.toSpaced.addNode node, h.toCounted.addNode node, by simpa using h.single⟩

lemma node?_modifyNode (id n : NodeId) (f : Node → Node) :
    (net.modifyNode id f).node? n = if n = id then (net.node? n).map f else net.node? n := by
  simp only [node?, modifyNode, Array.getElem?_modify]
  by_cases e : n = id
  · subst e
    cases net.nodes[n]? with
    | none => simp
    | some m => cases m <;> simp
  · rw [if_neg (Ne.symm e), if_neg e]

lemma Spaced.modifyNode (h : net.Spaced) (id : NodeId) (f : Node → Node) :
    (net.modifyNode id f).Spaced where
  lt n hn := by simpa [Network.modifyNode] using h.lt n hn
  free n hn := by
    rw [node?_modifyNode, h.free n hn]
    split <;> rfl
  nodup := h.nodup

lemma node?_setValue (id n : NodeId) (input : Nat) (value : SocketValue) :
    (net.setValue id input value).node? n =
      if n = id then (net.node? n).map (·.setValue input value) else net.node? n :=
  node?_modifyNode ..

lemma Tidy.setValue (h : net.Tidy) (id : NodeId) (input : Nat) (value : SocketValue) :
    (net.setValue id input value).Tidy :=
  ⟨h.toSpaced.modifyNode .., h.toCounted.of_links rfl rfl rfl, h.single⟩

@[simp] lemma inputLink?_setValue (id n : NodeId) (input i : Nat) (value : SocketValue) :
    (net.setValue id input value).inputLink? n i = net.inputLink? n i := rfl

@[simp] lemma inputLink?_addNode (node : Node) (n : NodeId) (i : Nat) :
    (net.addNode node).2.inputLink? n i = net.inputLink? n i := by
  simp [inputLink?, feed?]

/-! ## Removing links -/

lemma mem_links_removeLink {l : Nat × Link} :
    l ∈ (net.removeLink k).links ↔ l ∈ net.links ∧ l.1 ≠ k := by
  simp [removeLink]

lemma Counted.removeLink (h : net.Counted) (hk : k ∈ net.links.map Prod.fst) :
    (net.removeLink k).Counted := by
  have hsub : ((net.removeLink k).links.map Prod.fst).Sublist (net.links.map Prod.fst) :=
    Sublist.map _ filter_sublist
  constructor
  · exact h.numbers.sublist hsub
  · exact fun l hl => h.number_lt l (mem_links_removeLink.1 hl).1
  · intro m hm
    obtain rfl | hm := mem_cons.1 hm
    · obtain ⟨l, hl, rfl⟩ := mem_map.1 hk
      exact h.number_lt l hl
    · exact h.vacant_lt m hm
  · intro m hm hmem
    obtain ⟨l, hl, rfl⟩ := mem_map.1 hmem
    obtain e | hm := mem_cons.1 hm
    · exact (mem_links_removeLink.1 hl).2 e
    · exact h.vacant_free _ hm (hsub.subset hmem)
  · exact nodup_cons.2 ⟨fun hm => h.vacant_free k hm hk, h.vacant_nodup⟩

lemma Tidy.removeLink (h : net.Tidy) (hk : k ∈ net.links.map Prod.fst) : (net.removeLink k).Tidy :=
  ⟨h.toSpaced.of_nodes rfl rfl, h.toCounted.removeLink hk, fun l hl m hm e =>
    h.single l (mem_links_removeLink.1 hl).1 m (mem_links_removeLink.1 hm).1 e⟩

lemma links_foldl_removeLink (doomed : List (Nat × Link)) (net : Network) :
    (doomed.foldl (fun net l => net.removeLink l.1) net).links =
      net.links.filter fun l => decide (l.1 ∉ doomed.map Prod.fst) := by
  induction doomed generalizing net with
  | nil => simp
  | cons d doomed ih =>
    rw [foldl_cons, ih, removeLink, filter_filter]
    refine filter_congr fun l _ => ?_
    rw [Bool.eq_iff_iff, Bool.and_eq_true, decide_eq_true_eq, decide_eq_true_eq, bne_iff_ne,
      map_cons, mem_cons, not_or, and_comm]

lemma Counted.removeLinks_spec (p : Nat × Link → Bool) (h : net.Counted) :
    let cut := (net.links.filter p).foldl (fun net l => net.removeLink l.1) net
    cut.Counted ∧ cut.links = net.links.filter (fun l => !p l) := by
  -- The links still to be removed are part of the network.
  have key : ∀ (doomed : List (Nat × Link)) (cur : Network), cur.Counted → doomed ⊆ cur.links →
      (doomed.map Prod.fst).Nodup → (doomed.foldl (fun net l => net.removeLink l.1) cur).Counted := by
    intro doomed
    induction doomed with
    | nil => exact fun _ hcur _ _ => hcur
    | cons d doomed ih =>
      intro cur hcur hsub hnd
      obtain ⟨hd, hsub⟩ := cons_subset.1 hsub
      obtain ⟨hnot, hnd⟩ := nodup_cons.1 hnd
      refine ih _ (hcur.removeLink (mem_map_of_mem hd)) (fun l hl => ?_) hnd
      exact mem_links_removeLink.2 ⟨hsub hl, fun e => hnot (e ▸ mem_map_of_mem hl)⟩
  refine ⟨key _ net h filter_sublist.subset (h.numbers.sublist (Sublist.map _ filter_sublist)), ?_⟩
  rw [links_foldl_removeLink]
  refine filter_congr fun l hl => ?_
  have hiff : l.1 ∈ (net.links.filter p).map Prod.fst ↔ p l = true := by
    constructor
    · intro hmem
      obtain ⟨m, hm, e⟩ := mem_map.1 hmem
      obtain ⟨hm, hp⟩ := mem_filter.1 hm
      rwa [← h.eq_of_number hm hl e]
    · exact fun hp => mem_map_of_mem (mem_filter.2 ⟨hl, hp⟩)
  simp [hiff]

lemma nodes_foldl_removeLink (doomed : List (Nat × Link)) (net : Network) :
    (doomed.foldl (fun net l => net.removeLink l.1) net).nodes = net.nodes ∧
      (doomed.foldl (fun net l => net.removeLink l.1) net).vacant = net.vacant := by
  induction doomed generalizing net with
  | nil => exact ⟨rfl, rfl⟩
  | cons l doomed ih => exact ih (net.removeLink l.1)

lemma removeLinks_spec (p : Nat × Link → Bool) (h : net.Tidy) :
    let cut := (net.links.filter p).foldl (fun net l => net.removeLink l.1) net
    cut.Tidy ∧ cut.links = net.links.filter (fun l => !p l) ∧ cut.nodes = net.nodes ∧
      cut.vacant = net.vacant := by
  intro cut
  obtain ⟨hc, hl⟩ := h.toCounted.removeLinks_spec p
  obtain ⟨hn, hv⟩ := nodes_foldl_removeLink (net.links.filter p) net
  refine ⟨⟨h.toSpaced.of_nodes hn hv, hc, fun l hl' m hm e => ?_⟩, hl, hn, hv⟩
  rw [hl] at hl' hm
  exact h.single l (mem_of_mem_filter hl') m (mem_of_mem_filter hm) e

/-! ## Links into and out of nodes -/

section Tidy

variable (h : net.Tidy)

include h

lemma Tidy.unlink (id : NodeId) (input : Nat) : (net.unlink id input).Tidy := by
  unfold Network.unlink
  cases hf : net.feed? id input with
  | none => exact h
  | some l => exact h.removeLink (mem_map_of_mem (mem_of_find?_eq_some hf))

omit h in
@[simp] lemma node?_unlink (net : Network) (id : NodeId) (input : Nat) (n : NodeId) :
    (net.unlink id input).node? n = net.node? n := by
  unfold unlink
  cases net.feed? id input <;> rfl

lemma Tidy.feeds_unlink {a b : NodeId × Nat} :
    (net.unlink id input).Feeds a b ↔ net.Feeds a b ∧ b ≠ (id, input) := by
  unfold Network.unlink
  cases hf : net.feed? id input with
  | none =>
    refine ⟨fun hab => ⟨hab, ?_⟩, fun hab => hab.1⟩
    rintro rfl
    have hn : net.inputLink? id input = none := by rw [inputLink?, hf, Option.map_none]
    exact h.inputLink?_eq_none_iff.1 hn a hab
  | some l =>
    have hl := mem_of_find?_eq_some hf
    have hp := find?_some hf
    simp only [Bool.and_eq_true, beq_iff_eq] at hp
    constructor
    · rintro ⟨m, hm, ha, hb⟩
      obtain ⟨hm, hne⟩ := mem_links_removeLink.1 hm
      refine ⟨⟨m, hm, ha, hb⟩, ?_⟩
      rintro rfl
      exact hne (by rw [h.single m hm l hl (by rw [hb, hp.1, hp.2])])
    · rintro ⟨⟨m, hm, ha, rfl⟩, hne⟩
      refine ⟨m, mem_links_removeLink.2 ⟨hm, fun e => hne ?_⟩, ha, rfl⟩
      rw [h.eq_of_number hm hl e, hp.1, hp.2]

lemma Tidy.inputLink?_unlink (id n : NodeId) (input i : Nat) :
    (net.unlink id input).inputLink? n i =
      if (n, i) = (id, input) then none else net.inputLink? n i := by
  split
  · rename_i e
    rw [(h.unlink id input).inputLink?_eq_none_iff]
    exact fun s hs => ((h.feeds_unlink).1 hs).2 e
  · rename_i e
    ext s
    rw [(h.unlink id input).inputLink?_eq_some_iff, h.feeds_unlink, h.inputLink?_eq_some_iff]
    exact ⟨fun hs => hs.1, fun hs => ⟨hs, e⟩⟩

omit h in
/-- A link is added in front of the others. -/
lemma addLink_spec (net : Network) (link : Link) :
    ∃ k, (net.addLink link).links = (k, link) :: net.links ∧
      (net.addLink link).nodes = net.nodes ∧ (net.addLink link).vacant = net.vacant := by
  unfold addLink
  cases net.vacantLinks <;> exact ⟨_, rfl, rfl, rfl⟩

omit h in
@[simp] lemma node?_addLink (net : Network) (link : Link) (n : NodeId) :
    (net.addLink link).node? n = net.node? n := by
  obtain ⟨_, _, hn, _⟩ := net.addLink_spec link
  rw [node?, node?, hn]

omit h in
lemma Counted.addLink (h : net.Counted) (link : Link) : (net.addLink link).Counted := by
  unfold Network.addLink
  cases hv : net.vacantLinks with
  | cons k vacantLinks =>
    have hk : k ∈ net.vacantLinks := by rw [hv]; exact mem_cons_self
    have hsub : ∀ m ∈ vacantLinks, m ∈ net.vacantLinks := fun m hm => by
      rw [hv]
      exact mem_cons_of_mem _ hm
    have hnd : k ∉ vacantLinks ∧ vacantLinks.Nodup := by
      have := h.vacant_nodup
      rwa [hv, nodup_cons] at this
    constructor
    · exact nodup_cons.2 ⟨h.vacant_free k hk, h.numbers⟩
    · intro l hl
      obtain rfl | hl := mem_cons.1 hl
      · exact h.vacant_lt k hk
      · exact h.number_lt l hl
    · exact fun m hm => h.vacant_lt m (hsub m hm)
    · intro m hm hmem
      obtain rfl | hmem := mem_cons.1 hmem
      · exact hnd.1 hm
      · exact h.vacant_free m (hsub m hm) hmem
    · exact hnd.2
  | nil =>
    constructor
    · refine nodup_cons.2 ⟨fun hmem => ?_, h.numbers⟩
      obtain ⟨l, hl, e⟩ := mem_map.1 hmem
      have := h.number_lt l hl
      omega
    · intro l hl
      obtain rfl | hl := mem_cons.1 hl
      · exact Nat.lt_succ_self _
      · exact Nat.lt_succ_of_lt (h.number_lt l hl)
    · simp
    · simp
    · simp

lemma Tidy.addLink {link : Link}
    (hfree : ∀ a, ¬ net.Feeds a (link.target, link.input.toNat)) : (net.addLink link).Tidy := by
  obtain ⟨k, hlinks, hn, hv⟩ := net.addLink_spec link
  refine ⟨h.toSpaced.of_nodes hn hv, h.toCounted.addLink link, fun l hl m hm e => ?_⟩
  rw [hlinks] at hl hm
  obtain rfl | hl := mem_cons.1 hl <;> obtain rfl | hm := mem_cons.1 hm
  · rfl
  · exact absurd ⟨m, hm, rfl, e.symm⟩ (hfree _)
  · exact absurd ⟨l, hl, rfl, e⟩ (hfree _)
  · exact h.single l hl m hm e

omit h in
lemma feeds_addLink {link : Link} {a b : NodeId × Nat} : (net.addLink link).Feeds a b ↔
      (a = (link.source, link.output.toNat) ∧ b = (link.target, link.input.toNat)) ∨
        net.Feeds a b := by
  obtain ⟨k, hlinks, _⟩ := net.addLink_spec link
  simp only [Feeds, hlinks, mem_cons, exists_eq_or_imp, eq_comm]

omit h in
@[simp] lemma node?_link (net : Network) (source : NodeId × Nat) (target : NodeId) (input : Nat)
    (n : NodeId) : (net.link source target input).node? n = net.node? n := by
  rw [link, node?_addLink, node?_unlink]

end Tidy

/-- A position that a link can name. -/
abbrev Fits (n : Nat) : Prop := n < 65536

lemma toNat_ofNat_of_fits {n : Nat} (h : Fits n) : (UInt16.ofNat n).toNat = n := by
  rw [UInt16.toNat_ofNat']
  exact Nat.mod_eq_of_lt h

lemma Tidy.link (h : net.Tidy) (source : NodeId × Nat) (target : NodeId)
    (hi : Fits input) : (net.link source target input).Tidy := by
  refine (h.unlink target input).addLink fun a ha => ?_
  rw [toNat_ofNat_of_fits hi] at ha
  exact (h.feeds_unlink.1 ha).2 rfl

lemma Tidy.feeds_link (h : net.Tidy) (ho : Fits source.2) (hi : Fits input) {a b : NodeId × Nat} :
    (net.link source target input).Feeds a b ↔
      a = source ∧ b = (target, input) ∨ net.Feeds a b ∧ b ≠ (target, input) := by
  rw [Network.link, feeds_addLink, h.feeds_unlink, toNat_ofNat_of_fits hi, toNat_ofNat_of_fits ho]

lemma Tidy.inputLink?_link (h : net.Tidy)
    (ho : Fits source.2) (hi : Fits input) (n : NodeId) (i : Nat) :
    (net.link source target input).inputLink? n i =
      if (n, i) = (target, input) then some source else net.inputLink? n i := by
  have ht := h.link source target hi
  split
  · rename_i e
    rw [ht.inputLink?_eq_some_iff, h.feeds_link ho hi]
    exact .inl ⟨rfl, e⟩
  · rename_i e
    ext s
    rw [ht.inputLink?_eq_some_iff, h.feeds_link ho hi, h.inputLink?_eq_some_iff]
    exact ⟨fun hs => hs.elim (fun hs => absurd hs.2 e) And.left, fun hs => .inr ⟨hs, e⟩⟩

/-! ## Removing nodes -/

lemma Tidy.removeLinks_feeds (h : net.Tidy) (gone : NodeId → NodeId → Bool) :
    let cut := (net.links.filter fun l => gone l.2.source l.2.target).foldl
      (fun net l => net.removeLink l.1) net
    cut.Tidy ∧ (∀ n, cut.node? n = net.node? n) ∧
      ∀ a b, cut.Feeds a b ↔ net.Feeds a b ∧ gone a.1 b.1 = false := by
  intro cut
  obtain ⟨ht, hl, hn, _⟩ := removeLinks_spec (fun l => gone l.2.source l.2.target) h
  have hm : ∀ l, l ∈ cut.links ↔ l ∈ net.links ∧ gone l.2.source l.2.target = false := by
    intro l
    rw [hl]
    simp
  refine ⟨ht, fun n => by rw [node?, node?, hn], fun a b => ⟨?_, ?_⟩⟩
  · rintro ⟨l, hmem, rfl, rfl⟩
    exact ⟨⟨l, ((hm l).1 hmem).1, rfl, rfl⟩, ((hm l).1 hmem).2⟩
  · rintro ⟨⟨l, hmem, rfl, rfl⟩, hkept⟩
    exact ⟨l, (hm l).2 ⟨hmem, hkept⟩, rfl, rfl⟩

lemma Tidy.removeOutgoing_spec (h : net.Tidy) (id : NodeId) :
    (net.removeOutgoing id).Tidy ∧ (∀ n, (net.removeOutgoing id).node? n = net.node? n) ∧
      ∀ a b, (net.removeOutgoing id).Feeds a b ↔ net.Feeds a b ∧ a.1 ≠ id := by
  obtain ⟨ht, hn, hf⟩ := h.removeLinks_feeds fun source _ => source == id
  exact ⟨ht, hn, fun a b => (hf a b).trans (by simp)⟩

lemma Tidy.removeIncoming_spec (h : net.Tidy) (id : NodeId) :
    (net.removeIncoming id).Tidy ∧ (∀ n, (net.removeIncoming id).node? n = net.node? n) ∧
      ∀ a b, (net.removeIncoming id).Feeds a b ↔ net.Feeds a b ∧ b.1 ≠ id := by
  obtain ⟨ht, hn, hf⟩ := h.removeLinks_feeds fun _ target => target == id
  exact ⟨ht, hn, fun a b => (hf a b).trans (by simp)⟩

lemma node?_removeNode (net : Network) (id n : NodeId) :
    (net.removeNode id).node? n = if n = id then none else net.node? n := by
  have hnodes : ((net.removeOutgoing id).removeIncoming id).nodes = net.nodes :=
    (nodes_foldl_removeLink _ _).1.trans (nodes_foldl_removeLink _ _).1
  simp only [removeNode, node?, Array.getElem?_setIfInBounds, hnodes]
  by_cases e : n = id
  · subst e
    by_cases hlt : n < net.nodes.size <;> simp [hlt]
  · rw [if_neg (Ne.symm e), if_neg e]

lemma node?_foldl_removeNode (ids : List NodeId) (net : Network) (n : NodeId) :
    (ids.foldl removeNode net).node? n = if n ∈ ids then none else net.node? n := by
  induction ids generalizing net with
  | nil => simp
  | cons id ids ih =>
    rw [foldl_cons, ih, node?_removeNode]
    by_cases e : n = id <;> by_cases hm : n ∈ ids <;> simp [e, hm]

/-- Nodes stay there while others are removed. -/
lemma exists_node?_removeNode {id : NodeId} {ids : List NodeId} (hnd : (id :: ids).Nodup)
    (hex : ∀ n ∈ id :: ids, ∃ node, net.node? n = some node) :
    ∀ n ∈ ids, ∃ node, (net.removeNode id).node? n = some node := by
  intro n hn
  obtain ⟨node, hnode⟩ := hex n (mem_cons_of_mem _ hn)
  have hne : n ≠ id := fun e => (nodup_cons.1 hnd).1 (e ▸ hn)
  exact ⟨node, by rw [node?_removeNode, if_neg hne, hnode]⟩

lemma Spaced.removeNode (h : net.Spaced)
    (hid : net.node? id = some node) : (net.removeNode id).Spaced := by
  have hnodes : ((net.removeOutgoing id).removeIncoming id).nodes = net.nodes :=
    (nodes_foldl_removeLink _ _).1.trans (nodes_foldl_removeLink _ _).1
  have hvacant : ((net.removeOutgoing id).removeIncoming id).vacant = net.vacant :=
    (nodes_foldl_removeLink _ _).2.trans (nodes_foldl_removeLink _ _).2
  have hmem : ∀ n ∈ (net.removeNode id).vacant, n = id ∨ n ∈ net.vacant := by
    intro n hn
    rwa [Network.removeNode, mem_cons, hvacant] at hn
  constructor
  · intro n hn
    have hlt : n < net.nodes.size := by
      obtain rfl | hn := hmem n hn
      · exact node?_eq_some_lt hid
      · exact h.lt n hn
    simpa [Network.removeNode, hnodes] using hlt
  · intro n hn
    rw [node?_removeNode]
    split
    · rfl
    · rename_i hne
      exact h.free n ((hmem n hn).resolve_left hne)
  · rw [Network.removeNode, hvacant]
    refine nodup_cons.2 ⟨fun hv => ?_, h.nodup⟩
    rw [h.free id hv] at hid
    cases hid

lemma Tidy.removeNode_spec (h : net.Tidy) (hid : net.node? id = some node) :
    (net.removeNode id).Tidy ∧
      (∀ n, (net.removeNode id).node? n = if n = id then none else net.node? n) ∧
      ∀ a b, (net.removeNode id).Feeds a b ↔ net.Feeds a b ∧ a.1 ≠ id ∧ b.1 ≠ id := by
  obtain ⟨ht₁, _, hf₁⟩ := h.removeOutgoing_spec id
  obtain ⟨ht₂, _, hf₂⟩ := ht₁.removeIncoming_spec id
  refine ⟨⟨h.toSpaced.removeNode hid, ht₂.toCounted.of_links rfl rfl rfl, ht₂.single⟩,
    node?_removeNode net id, fun a b => ?_⟩
  have : (net.removeNode id).Feeds a b ↔ ((net.removeOutgoing id).removeIncoming id).Feeds a b :=
    Iff.rfl
  rw [this, hf₂, hf₁, and_assoc]

end Shading.Network
