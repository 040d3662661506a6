import Shading.Proofs.Bounds
import Shading.Proofs.Documents
import Shading.Proofs.Editing

/-!
# Graphs that survive being saved

The document of a network has its nodes in the order of their numbers, the numbers that are vacant
between them, and its links by number.  Numbers are used again, so there may be holes in both lists,
and links are not saved in the order in which they were made.

`Graph.Reached.exists_ofJson_toJson` says that nothing of a graph is lost: what is read from its
document answers every question alike and has the same document.
-/

namespace Shading

open List Json

namespace Network

variable {net net' : Network} {α : Type}

/-! ## The same readings -/

/-- Nothing that is read from the one network differs in the other. -/
structure Copies (net net' : Network) : Prop where
  ids : net'.ids = net.ids
  node : ∀ id, net'.node? id = net.node? id
  input : ∀ id input, net'.inputLink? id input = net.inputLink? id input
  output : ∀ id output, net'.outputLinks id output = net.outputLinks id output

lemma socketLe_iff {a b : Nat × Nat} : socketLe a b = true ↔ a.1 < b.1 ∨ a.1 = b.1 ∧ a.2 ≤ b.2 := by
  simp [socketLe]

lemma insertSocket_comm (a b : Nat × Nat) (l : List (Nat × Nat)) :
    insertSocket a (insertSocket b l) = insertSocket b (insertSocket a l) := by
  have hanti : socketLe a b = true → socketLe b a = true → a = b := by
    rw [socketLe_iff, socketLe_iff, Prod.ext_iff]
    intro hab hba
    omega
  have htotal : socketLe a b = true ∨ socketLe b a = true := by
    rw [socketLe_iff, socketLe_iff]
    omega
  have htrans : ∀ {x y z : Nat × Nat}, socketLe x y = true → socketLe y z = true →
      socketLe x z = true := by
    intro x y z
    rw [socketLe_iff, socketLe_iff, socketLe_iff]
    intro hxy hyz
    omega
  induction l with
  | nil => grind [insertSocket]
  | cons c l ih => grind [insertSocket]

/-- Of links in another order the one that is looked for is found, if there is only one. -/
lemma find?_eq_of_perm {p : α → Bool} {l l' : List α} (hp : l.Perm l')
    (hone : ∀ a ∈ l, ∀ b ∈ l, p a = true → p b = true → a = b) : l'.find? p = l.find? p := by
  cases h : l.find? p with
  | none =>
    rw [find?_eq_none] at h ⊢
    exact fun a ha => h a (hp.mem_iff.2 ha)
  | some a =>
    have ha := find?_some h
    have hmem := mem_of_find?_eq_some h
    cases h' : l'.find? p with
    | none => exact absurd ha (find?_eq_none.1 h' a (hp.mem_iff.1 hmem))
    | some b =>
      rw [hone b (hp.mem_iff.2 (mem_of_find?_eq_some h')) a hmem (find?_some h') ha]

/-- The same nodes, and the same links in another order. -/
lemma Tidy.copies (h : net.Tidy) (hn : ∀ id, net'.node? id = net.node? id)
    (hl : net.links.Perm net'.links) (hids : net'.ids = net.ids) : net.Copies net' where
  ids := hids
  node := hn
  input id input := by
    rw [inputLink?, inputLink?, feed?, feed?, find?_eq_of_perm hl fun l hl m hm hpl hpm => ?_]
    simp only [Bool.and_eq_true, beq_iff_eq] at hpl hpm
    exact h.single l hl m hm (by rw [hpl.1, hpl.2, hpm.1, hpm.2])
  output id output := by
    have hperm := ((hl.filter fun l => l.2.source == id).filter fun l =>
      l.2.output.toNat == output).map fun l => (l.2.target, l.2.input.toNat)
    have : LeftCommutative insertSocket := ⟨insertSocket_comm⟩
    exact (hperm.foldr_eq []).symm

/-! ## Numbers of nodes -/

lemma bound_le_size (net : Network) : net.bound ≤ net.nodes.size := by
  unfold bound
  split
  · rename_i id hid
    have hmem : id ∈ net.ids := mem_of_getLast? hid
    obtain ⟨node, hn⟩ := mem_ids.1 hmem
    exact node?_eq_some_lt hn
  · exact Nat.zero_le _

lemma ids_eq_filter (net : Network) : net.ids = (range net.bound).filter net.contains := by
  obtain ⟨k, hk⟩ := Nat.exists_eq_add_of_le net.bound_le_size
  have hrest : ((range k).map (net.bound + ·)).filter net.contains = [] := by
    rw [filter_eq_nil_iff]
    rintro _ hmem hc
    obtain ⟨i, _, rfl⟩ := mem_map.1 hmem
    have hid : net.bound + i ∈ net.ids := contains_iff_mem_ids.1 hc
    exact absurd (lt_bound hid) (Nat.not_lt.2 (Nat.le_add_right ..))
  rw [ids, hk, range_add, filter_append, hrest, append_nil]

def nodeList (net : Network) : List Node := (range net.bound).filterMap net.node?

lemma filterMap_ids (net : Network) (g : Node → α) :
    (net.ids.filterMap fun id => (net.node? id).map g) = net.nodeList.map g := by
  rw [ids_eq_filter, nodeList, map_filterMap, filterMap_filter]
  refine filterMap_congr fun id _ => ?_
  rw [contains]
  cases net.node? id <;> rfl

/-- Every number below the bound belongs to a node or is a hole. -/
lemma length_nodeList_add_length_holes (net : Network) :
    net.nodeList.length + net.holes.length = net.bound := by
  rw [nodeList, holes, length_filterMap_eq_countP, ← countP_eq_length_filter]
  conv_rhs => rw [← length_range (n := net.bound), length_eq_countP_add_countP net.contains]
  simp only [Bool.not_eq_true, Bool.decide_eq_false]
  rfl

/-- Nodes spread over their numbers stand where they stood. -/
lemma spread_eq_map (net : Network) (n id : Nat) :
    spread n id ((range' id n).filter fun id => !net.contains id)
      ((range' id n).filterMap net.node?) = (range' id n).map net.node? := by
  induction n generalizing id with
  | zero => rfl
  | succ n ih =>
    rw [range'_succ, filter_cons, filterMap_cons, map_cons, contains]
    cases hn : net.node? id with
    | none =>
      rw [if_pos (by rfl), spread, if_pos (by rfl), tail_cons, ih]
    | some node =>
      rw [if_neg (by simp), spread, if_neg]
      · exact congrArg (some node :: ·) (ih (id + 1))
      · intro hhead
        have hmem := mem_of_mem_filter (mem_of_head? hhead)
        exact absurd (mem_range'_1.1 hmem).1 (by omega)

/-! ## Numbers of links -/

lemma lookup_eq_some_iff {l : List (Nat × α)} (hl : (l.map Prod.fst).Nodup) {k : Nat}
    {a : α} : l.lookup k = some a ↔ (k, a) ∈ l := by
  rw [List.lookup_eq_some_iff]
  constructor
  · rintro ⟨before, rest, rfl, _⟩
    exact mem_append_right _ mem_cons_self
  · intro h
    obtain ⟨before, rest, rfl⟩ := append_of_mem h
    rw [map_append, map_cons, nodup_append] at hl
    exact ⟨before, rest, rfl, fun p hp =>
      bne_iff_ne.2 (hl.2.2 p.1 (mem_map_of_mem hp) k mem_cons_self).symm⟩

lemma lt_lastLinkBound {l : Nat × Link} (hl : l ∈ net.links) : l.1 < net.lastLinkBound := by
  have hmem := mem_map_of_mem (f := fun l : Nat × Link => l.1 + 1) hl
  rw [lastLinkBound, foldl_max]
  exact (le_max?_getD_of_mem hmem).trans (le_max_right ..)

/-- The links as they are read from a list of them by number. -/
def linksOf (slots : List (Option Link)) : List (Nat × Link) :=
  (slots.zipIdx.filterMap fun p => p.1.map (p.2, ·)).reverse

lemma mem_linksOf {slots : List (Option Link)} {k : Nat} {l : Link} :
    (k, l) ∈ linksOf slots ↔ slots[k]? = some (some l) := by
  rw [linksOf, mem_reverse, mem_filterMap]
  constructor
  · rintro ⟨⟨o, i⟩, hmem, ho⟩
    obtain ⟨m, rfl, hm⟩ := Option.map_eq_some_iff.1 ho
    cases hm
    exact mem_zipIdx_iff_getElem?.1 hmem
  · intro h
    exact ⟨(some l, k), mem_zipIdx_iff_getElem?.2 h, rfl⟩

lemma nodup_linksOf (slots : List (Option Link)) : (linksOf slots).Nodup := by
  refine nodup_reverse.2 (Nodup.filterMap ?_ ?_)
  · rintro ⟨o, i⟩ ⟨o', i'⟩ l ho ho'
    obtain ⟨m, rfl, rfl⟩ := Option.map_eq_some_iff.1 ho
    obtain ⟨m', rfl, he⟩ := Option.map_eq_some_iff.1 ho'
    cases he
    rfl
  · refine Nodup.of_map Prod.snd ?_
    rw [zipIdx_map_snd]
    exact nodup_range'

/-- Links that are saved by number are read again, the one with the highest number first. -/
lemma Counted.perm_linksOf (h : net.Counted) : net.links.Perm (linksOf net.linkSlots) := by
  refine (perm_ext_iff_of_nodup h.numbers.of_map (nodup_linksOf _)).2 fun l => ?_
  obtain ⟨k, l⟩ := l
  rw [mem_linksOf, linkSlots, getElem?_map, ← lookup_eq_some_iff h.numbers]
  constructor
  · intro hl
    have hlt : k < net.lastLinkBound := lt_lastLinkBound ((lookup_eq_some_iff h.numbers).1 hl)
    rw [getElem?_range hlt, Option.map_some, hl]
  · intro hl
    obtain ⟨i, hi, he⟩ := Option.map_eq_some_iff.1 hl
    obtain ⟨_, rfl⟩ := List.getElem?_eq_some_iff.1 hi
    rw [getElem_range] at he
    exact he

/-- Links in another order are saved alike. -/
lemma Counted.linkSlots_eq (h : net.Counted) (hl : net.links.Perm net'.links) :
    net'.linkSlots = net.linkSlots := by
  have hbound : net'.lastLinkBound = net.lastLinkBound := by
    rw [lastLinkBound, lastLinkBound, (hl.map fun l : Nat × Link => l.1 + 1).foldl_eq 0]
  have hnumbers : (net'.links.map Prod.fst).Nodup := (hl.map Prod.fst).nodup_iff.1 h.numbers
  rw [linkSlots, linkSlots, hbound]
  refine map_congr_left fun k _ => Option.ext fun l => ?_
  rw [lookup_eq_some_iff hnumbers, lookup_eq_some_iff h.numbers, hl.mem_iff]

/-! ## Reading what was saved -/

/-- A network with the nodes of another at their numbers, up to the last one. -/
lemma node?_of_nodes (h : net'.nodes.toList = (range net.bound).map net.node?) :
    (∀ id, net'.node? id = net.node? id) ∧ net'.ids = net.ids := by
  have hnode : ∀ id, net'.node? id = net.node? id := by
    intro id
    rw [node?, ← Array.getElem?_toList, h, getElem?_map]
    by_cases hid : id < net.bound
    · rw [getElem?_range hid, Option.map_some, Option.join_some]
    · rw [getElem?_eq_none (by simpa using hid), Option.map_none, Option.join_none]
      cases hn : net.node? id with
      | none => rfl
      | some node => exact absurd (lt_bound (mem_ids.2 ⟨node, hn⟩)) hid
  have hcontains : net'.contains = net.contains :=
    funext fun id => by rw [contains, hnode, contains]
  have hsize : net'.nodes.size = net.bound := by
    rw [← Array.length_toList, h, length_map, length_range]
  exact ⟨hnode, by rw [ids_eq_filter net, ids, hsize, hcontains]⟩

/-- The parts of a network make a copy of it. -/
lemma Tidy.exists_ofParts? (h : net.Tidy)
    (hends : ∀ l ∈ net.links, l.2.source ∈ net.ids ∧ l.2.target ∈ net.ids) :
    ∃ net', ofParts? net.nodeList net.holes net.linkSlots = some net' ∧
      net.links.Perm net'.links ∧ net.Copies net' := by
  have hholes : isAscendingBelow net.bound net.holes = true :=
    isAscendingBelow_iff.2 ⟨pairwise_lt_range.filter _, fun a ha =>
      mem_range.1 (mem_of_mem_filter ha)⟩
  have hslots : (net.linkSlots.all fun l => l.all fun l =>
      l.source < net.bound && l.target < net.bound) = true := by
    rw [all_eq_true]
    intro o ho
    obtain ⟨k, _, rfl⟩ := mem_map.1 ho
    rw [Option.all_eq_true]
    intro l hl
    obtain ⟨hs, ht⟩ := hends (k, l) ((lookup_eq_some_iff h.numbers).1 hl)
    simp [lt_bound hs, lt_bound ht]
  have hnodes : spread net.bound 0 net.holes net.nodeList =
      (range net.bound).map net.node? := by
    rw [holes, nodeList, range_eq_range', spread_eq_map]
  unfold ofParts?
  dsimp only
  rw [length_nodeList_add_length_holes, hholes, hslots, hnodes]
  refine ⟨_, if_pos rfl, h.perm_linksOf, ?_⟩
  obtain ⟨hnode, hids⟩ := @node?_of_nodes net ⟨_, _, linksOf net.linkSlots, _, _⟩ (by rfl)
  exact h.copies hnode h.perm_linksOf hids

/-- A copy is saved alike. -/
lemma Tidy.toJson_eq (h : net.Tidy) (hc : net.Copies net') (hl : net.links.Perm net'.links) :
    net'.toJson = net.toJson := by
  have hbound : net'.bound = net.bound := by rw [bound, bound, hc.ids]
  have hcontains : net'.contains = net.contains :=
    funext fun id => by rw [contains, hc.node, contains]
  have hholes : net'.holes = net.holes := by rw [holes, holes, hbound, hcontains]
  rw [toJson, toJson, hc.ids, hholes, h.linkSlots_eq hl, funext hc.node]

/-- Links along which a rank grows close no cycle. -/
lemma Ranked.isCyclic_eq_false {rank : NodeId → Nat} (h : net.Ranked rank) :
    net.isCyclic = false := by
  have hway : ∀ {P : NodeId → Prop} {a b : NodeId}, Way net.successors P a b → rank a ≤ rank b := by
    intro P a b w
    induction w with
    | here _ => exact le_rfl
    | step _ hab _ ih =>
      obtain ⟨l, hl, rfl⟩ := mem_map.1 hab
      obtain ⟨hl, hs⟩ := mem_filter.1 hl
      exact ((beq_iff_eq.1 hs ▸ h l hl).le).trans ih
  refine any_eq_false.2 fun l hl hpath => ?_
  have hlt := h l hl
  rw [hasPath, Bool.or_eq_true, beq_iff_eq, contains_iff_mem] at hpath
  obtain heq | hmem := hpath
  · exact absurd hlt (by rw [heq]; exact lt_irrefl _)
  · obtain ⟨a, ha, w⟩ := (mem_reachable nodup_range).1 hmem
    obtain rfl := mem_singleton.1 ha
    exact absurd hlt (hway w).not_gt

def Indexed (net : Network) : Prop := ∀ id ∈ net.ids, id < UInt32.size

def numbers (net : Network) : List Float32 := net.nodeList.flatMap Node.numbers

variable {f : Number → Number} {P : Float32 → Prop}

lemma lt_of_lt_bound (h : net.Indexed) {id : Nat} (hid : id < net.bound) : id < UInt32.size := by
  unfold bound at hid
  split at hid
  · rename_i last hlast
    exact (Nat.le_of_lt_succ hid).trans_lt (h last (mem_of_getLast? hlast))
  · cases hid

/-- A network is read from the documents of its parts. -/
lemma ofJson?_obj {nodes holes slots : Json} {ns : List Node} {ids : List NodeId}
    {ls : List (Option Link)} (hn : nodes.list? Node.ofJson? = some ns)
    (hh : holes.list? index32? = some ids)
    (hl : slots.list? (option? Link.ofJson?) = some ls) :
    ofJson? (.obj [("nodes", nodes), ("node_holes", holes), ("edge_property", .str "directed"),
      ("edges", slots)]) = ofParts? ns ids ls := by
  change ((nodes.list? Node.ofJson?).bind fun ns => (holes.list? index32?).bind fun ids =>
    (slots.list? (option? Link.ofJson?)).bind (ofParts? ns ids)) = ofParts? ns ids ls
  rw [hn, hh, hl]
  rfl

/-- The parts of a network are read from its document. -/
lemma ofJson?_toJson (h : Faithful f P) (hn : ∀ x ∈ net.numbers, P x) (hi : net.Indexed)
    (hl : (net.links.map Prod.fst).Nodup)
    (hends : ∀ l ∈ net.links, l.2.source ∈ net.ids ∧ l.2.target ∈ net.ids) :
    ofJson? (net.toJson.mapNumbers f) = ofParts? net.nodeList net.holes net.linkSlots := by
  have hnodes := list?_map fun n hmem =>
    Node.ofJson?_toJson h fun x hx => hn x (mem_flatMap.2 ⟨n, hmem, hx⟩)
  have hholes : ((arr (net.holes.map nat)).mapNumbers f).list? index32? =
      some net.holes := list?_map fun id hid => by
    rw [h.mapNumbers_nat]
    exact natBelow?_nat (lt_of_lt_bound hi (mem_range.1 (mem_of_mem_filter hid)))
  have hslots : ((arr (net.linkSlots.map (ofOption Link.toJson))).mapNumbers f).list?
      (option? Link.ofJson?) = some net.linkSlots :=
    list?_map fun o ho => option?_ofOption fun l hl' => by
      obtain ⟨k, _, rfl⟩ := mem_map.1 ho
      obtain ⟨hs, ht⟩ := hends (k, l) ((lookup_eq_some_iff hl).1 hl')
      exact ⟨Link.ofJson?_toJson h (hi _ hs) (hi _ ht), by simp [Link.toJson]⟩
  rw [toJson, filterMap_ids, mapNumbers]
  exact ofJson?_obj hnodes hholes hslots

/-- A network in order is read from its document: a copy without cycles, which is saved alike. -/
lemma Valid.exists_copy (hv : net.Valid) (h : Faithful f P) (hn : ∀ x ∈ net.numbers, P x)
    (hi : net.Indexed) : ∃ net', ofJson? (net.toJson.mapNumbers f) = some net' ∧
      net.Copies net' ∧ net'.toJson = net.toJson ∧ net'.isCyclic = false := by
  have hfeeds : ∀ l ∈ net.links,
      net.Feeds (l.2.source, l.2.output.toNat) (l.2.target, l.2.input.toNat) :=
    fun l hl => ⟨l, hl, rfl, rfl⟩
  have hends : ∀ l ∈ net.links, l.2.source ∈ net.ids ∧ l.2.target ∈ net.ids := by
    intro l hl
    obtain ⟨_, hs⟩ := (hv.joins (hfeeds l hl)).source
    obtain ⟨_, ht⟩ := (hv.joins (hfeeds l hl)).target
    exact ⟨mem_ids_of_kind? hs, mem_ids_of_kind? ht⟩
  obtain ⟨net', hread, hlinks, hcopy⟩ := hv.tidy.exists_ofParts? hends
  refine ⟨net', ?_, hcopy, hv.tidy.toJson_eq hcopy hlinks, ?_⟩
  · rw [ofJson?_toJson h hn hi hv.tidy.numbers hends, hread]
  · obtain ⟨rank, hr⟩ := hv
    have hranked : net'.Ranked rank := fun l hl => hr.ranked (hfeeds l (hlinks.mem_iff.2 hl))
    exact hranked.isCyclic_eq_false

end Network

/-! ## Graphs -/

namespace Graph

variable {g g' : Graph} {f : Number → Number} {P : Float32 → Prop}

/-- Nothing that is read from the one graph differs in the other. -/
structure Copies (g g' : Graph) : Prop where
  net : g.net.Copies g'.net
  output : g'.output = g.output
  finalized : g'.finalized = g.finalized
  unfinalized : Option.Rel Network.Copies g.unfinalized g'.unfinalized

def Indexed (g : Graph) : Prop := g.net.Indexed ∧ ∀ net ∈ g.unfinalized, net.Indexed

/-- The numbers in the nodes, also in those before the last preparation. -/
def numbers (g : Graph) : List Float32 :=
  g.net.numbers ++ (g.unfinalized.map Network.numbers).getD []

/-- The earlier network is read from its document. -/
lemma Sound.exists_copy_unfinalized (hg : g.Sound) (h : Faithful f P)
    (hn : ∀ x ∈ g.numbers, P x) (hi : g.Indexed) :
    ∃ before, option? Network.ofJson?
        ((ofOption Network.toJson g.unfinalized).mapNumbers f) = some before ∧
      Option.Rel Network.Copies g.unfinalized before ∧
      ofOption Network.toJson before = ofOption Network.toJson g.unfinalized ∧
      before.any Network.isCyclic = false := by
  cases hu : g.unfinalized with
  | none => exact ⟨none, rfl, .none, rfl, rfl⟩
  | some net =>
    have hnet : ∀ x ∈ net.numbers, P x := fun x hx => hn x (by
      rw [numbers, hu]
      exact mem_append_right _ hx)
    obtain ⟨net', hread, hcopy, hsame, hacyclic⟩ :=
      (hg.before net hu).1.exists_copy h hnet (hi.2 net hu)
    refine ⟨some net', ?_, .some hcopy, hsame, hacyclic⟩
    rw [ofOption, option?, hread, Option.map_some]
    simp [Network.toJson]

lemma Raw.ofJson?_obj {raw : Raw} {nodes output finalized unfinalized : Json}
    (hn : Network.ofJson? nodes = some raw.net) (ho : output.index32? = some raw.output)
    (hf : option? FinalizeOptions.ofJson? finalized = some raw.finalized)
    (hu : option? Network.ofJson? unfinalized = some raw.unfinalized) :
    Raw.ofJson? (.obj [("nodes", nodes), ("output", output), ("finalized", finalized),
      ("unfinalized", unfinalized)]) = some raw := by
  change (do return (⟨← Network.ofJson? nodes, ← output.index32?,
    ← option? FinalizeOptions.ofJson? finalized,
    ← option? Network.ofJson? unfinalized⟩ : Raw)) = some raw
  rw [hn, ho, hf, hu]
  rfl

lemma Sound.exists_copy (hg : g.Sound) (h : Faithful f P) (hn : ∀ x ∈ g.numbers, P x)
    (hi : g.Indexed) : ∃ g', ofJson (g.toJson.mapNumbers f) = .ok g' ∧ g.Copies g' ∧
      g'.toJson = g.toJson := by
  obtain ⟨net, hnet, hcopy, hsame, hacyclic⟩ :=
    hg.valid.exists_copy h (fun x hx => hn x (mem_append_left _ hx)) hi.1
  obtain ⟨before, hbefore, hcopies, halike, hfree⟩ := hg.exists_copy_unfinalized h hn hi
  have houtput : (nat g.output).index32? = some g.output :=
    natBelow?_nat (hi.1 _ (Network.mem_ids_of_kind? hg.output))
  have hfinalized : option? FinalizeOptions.ofJson?
      ((ofOption FinalizeOptions.toJson g.finalized).mapNumbers f) = some g.finalized :=
    option?_ofOption fun o _ =>
      ⟨FinalizeOptions.ofJson?_toJson o, by simp [FinalizeOptions.toJson]⟩
  have hraw : Raw.ofJson? (g.toJson.mapNumbers f) = some ⟨net, g.output, g.finalized, before⟩ := by
    rw [toJson, mapNumbers, mapMembers, mapMembers, h.mapNumbers_nat]
    exact Raw.ofJson?_obj hnet houtput hfinalized hbefore
  obtain ⟨node, hn, hk⟩ := Network.kind?_eq_some_iff.1 hg.output
  rw [← hcopy.node] at hn
  refine ⟨⟨net, g.output, g.finalized, before⟩, ?_, ⟨hcopy, rfl, rfl, hcopies⟩, ?_⟩
  · simp [ofJson, hraw, LoadError.ofOption, ofRaw, ofNetwork, hfree, hn, hk, hacyclic, bind,
      Except.bind, pure, Except.pure, Except.mapError]
  · rw [toJson, toJson, hsame, halike]

/-- However a graph was edited and prepared, it is read from its document, whatever stands for its
numbers there as long as they read back: the nodes, what feeds every input and what every output
feeds, the output node, the record of the last preparation and the network before it are the same,
and saving it again gives the same document. -/
theorem Reached.exists_ofJson_toJson (hg : g.Reached) (hi : g.Indexed)
    (hf : Json.Faithful f (· ∈ g.numbers)) :
    ∃ g', ofJson (g.toJson.mapNumbers f) = .ok g' ∧ g.Copies g' ∧ g'.toJson = g.toJson :=
  hg.sound.exists_copy hf (fun _ hx => hx) hi

/-- A rough surface.  Preparation copies the number and removes its node and link, so that there is a
hole in both lists. -/
def rough : Graph :=
  let g := ((new.add (.value 0.5)).2.add .diffuseBsdf).2
  ((g.connected 1 "Value" 2 "Roughness").connected 2 "BSDF" 0 "Surface").finalize {}

theorem rough_saved : rough.Reached ∧ rough.Indexed ∧ rough.net.holes = [1] ∧
    Json.Faithful id (· ∈ rough.numbers) ∧ ∃ g', ofJson rough.toJson = .ok g' ∧ rough.Copies g' ∧
      g'.toJson = rough.toJson := by
  have hreached : rough.Reached := by
    refine .finalize (@Drawn.reached _ (fun _ => True) ?_) {}
    exact Drawn.connected (Drawn.connected (.add (.add .new _) _) trivial) trivial
  have hindexed : rough.Indexed := by
    unfold Graph.Indexed Network.Indexed
    decide +kernel
  have hread := hreached.exists_ofJson_toJson hindexed Json.faithful_id
  rw [Json.mapNumbers_id] at hread
  exact ⟨hreached, hindexed, by decide +kernel, Json.faithful_id, hread⟩

end Graph

end Shading
