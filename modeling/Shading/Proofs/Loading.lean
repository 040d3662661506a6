import Shading.Graph.Json
import Shading.Proofs.Changes

/-!
# Graphs from documents

Reading a document checks less than editing does: the output node is there, and links make no cycle.
Links may be of any type, several may lead to one input, and they may name sockets, or even nodes,
that are not there.  A document may also hold the network from before a preparation, of which only
the second is checked.

What all networks have in common is that vacated numbers are free (`Network.Spaced`), since reading
rebuilds the list of them from the holes between the nodes.  So no node is lost but those that are
pruned, and the output node is never pruned.  It stays (`Graph.ofJson_keeps_output`), as long as it
is also there in the network from before, if the next preparation starts from that.
-/

namespace Shading.Network

open List

variable {net net' net'' : Network} {output n : NodeId} {f : Node.Form}

/-! ## Reading a network -/

lemma isAscendingBelow_iff {bound : Nat} {l : List Nat} :
    isAscendingBelow bound l = true ↔ l.Pairwise (· < ·) ∧ ∀ a ∈ l, a < bound := by
  fun_induction isAscendingBelow bound l with
  | case1 => simp
  | case2 a => simp
  | case3 a b rest ih =>
    rw [Bool.and_eq_true, decide_eq_true_eq, ih]
    simp only [pairwise_cons, forall_mem_cons]
    constructor
    · rintro ⟨hab, ⟨hb, hrest⟩, hlt, hbound⟩
      exact ⟨⟨⟨hab, fun c hc => hab.trans (hb c hc)⟩, hb, hrest⟩, hab.trans hlt, hlt, hbound⟩
    · rintro ⟨⟨⟨hab, _⟩, hrest⟩, _, hbound⟩
      exact ⟨hab, hrest, hbound⟩

lemma length_spread (n : Nat) (id : NodeId) (holes : List NodeId) (nodes : List Node) :
    (spread n id holes nodes).length = n := by
  induction n generalizing id holes nodes with
  | zero => rfl
  | succ n ih =>
    rw [spread]
    split <;> rw [length_cons, ih]

/-- There is no node at a hole. -/
lemma getElem?_spread (n : Nat) {id : Nat} {holes : List Nat} (nodes : List Node)
    (hpair : holes.Pairwise (· < ·)) (hle : ∀ a ∈ holes, id ≤ a) {a : Nat} (ha : a ∈ holes) :
    ((spread n id holes nodes)[a - id]?).join = none := by
  induction n generalizing id holes nodes with
  | zero => rfl
  | succ n ih =>
    cases holes with
    | nil => cases ha
    | cons hole holes =>
      obtain ⟨hlt, htail⟩ := pairwise_cons.1 hpair
      have hid := hle a ha
      rw [spread, head?_cons, tail_cons]
      split
      · rename_i e
        obtain rfl := Option.some.inj e
        obtain rfl | ha := mem_cons.1 ha
        · simp
        · have := hlt a ha
          rw [show a - hole = a - (hole + 1) + 1 by omega, getElem?_cons_succ]
          exact ih nodes htail hlt ha
      · rename_i e
        have hne : hole ≠ id := fun h => e (by rw [h])
        have hhole : id < hole := lt_of_le_of_ne (hle hole mem_cons_self) hne.symm
        have hall : ∀ b ∈ hole :: holes, id + 1 ≤ b := by
          intro b hb
          obtain rfl | hb := mem_cons.1 hb
          · exact hhole
          · exact hhole.trans (hlt b hb)
        rw [show a - id = a - (id + 1) + 1 by have := hall a ha; omega, getElem?_cons_succ]
        exact ih nodes.tail hpair hall ha

/-- What is read is spaced: the vacated numbers are the holes. -/
lemma spaced_of_ofParts? {nodes : List Node} {holes : List NodeId} {slots : List (Option Link)}
    (h : ofParts? nodes holes slots = some net) : net.Spaced := by
  unfold ofParts? at h
  dsimp only at h
  split at h
  · rename_i hcheck
    obtain ⟨hpair, hbound⟩ := isAscendingBelow_iff.1 (Bool.and_eq_true_iff.1 hcheck).1
    cases h
    refine ⟨fun a ha => ?_, fun a ha => ?_, ?_⟩
    · simpa [length_spread] using hbound a (mem_reverse.1 ha)
    · have := getElem?_spread (nodes.length + holes.length) nodes hpair (fun _ _ => Nat.zero_le _)
        (mem_reverse.1 ha)
      simpa [node?] using this
    · exact nodup_reverse.2 (hpair.imp fun hlt => hlt.ne)
  · cases h

lemma spaced_of_ofJson? {j : Json} (h : ofJson? j = some net) : net.Spaced := by
  simp only [ofJson?, bind, Option.bind_eq_some_iff] at h
  obtain ⟨_, _, _, _, _, _, _, _, _, _, h⟩ := h
  exact spaced_of_ofParts? h

end Shading.Network

namespace Shading

open Network

lemma Json.eq_some_of_option? {α : Type} {f : Json → Option α} {j : Json} {a : α}
    (h : Json.option? f j = some (some a)) : f j = some a := by
  unfold Json.option? at h
  split at h
  · cases h
  · obtain ⟨_, hf, e⟩ := Option.map_eq_some_iff.1 h
    cases e
    exact hf

namespace Graph

variable {g g' : Graph} {j : Json} {raw : Raw}

/-! ## The output node -/

lemma lasting_spaced : Lasting (fun _ => True) Spaced where
  empty := tidy_empty.toSpaced
  spaced h := h
  ofKind _ := trivial
  addNode h _ := h.addNode _
  setValue h _ := (h.setValue ..).spaced
  unlink h id i := (h.unlink id i).spaced
  link h _ _ := (h.link ..).spaced

/-! ## Reading a graph -/

/-- The networks that a document holds are spaced. -/
lemma raw_spaced (h : Raw.ofJson? j = some raw) :
    raw.net.Spaced ∧ ∀ net, raw.unfinalized = some net → net.Spaced := by
  simp only [Raw.ofJson?, bind, Option.bind_eq_some_iff] at h
  obtain ⟨r, _, net, hnet, _, _, _, _, before, hbefore, hraw⟩ := h
  cases hraw
  refine ⟨?_, ?_⟩
  · obtain ⟨doc, _, hdoc⟩ := Option.bind_eq_some_iff.1 hnet
    exact spaced_of_ofJson? hdoc
  · rintro net rfl
    rw [Json.Fields.option?] at hbefore
    cases hdoc : r "unfinalized" with
    | none =>
      rw [hdoc] at hbefore
      cases hbefore
    | some doc =>
      rw [hdoc] at hbefore
      exact spaced_of_ofJson? (Json.eq_some_of_option? hbefore)

lemma ofRaw_eq_ok (h : ofRaw raw = .ok g) :
    g = ⟨raw.net, raw.output, raw.finalized, raw.unfinalized⟩ ∧
      raw.net.kind? raw.output = some .output ∧ raw.net.isCyclic = false := by
  unfold ofRaw ofNetwork at h
  split at h
  · cases h
  cases hn : raw.net.node? raw.output with
  | none =>
    rw [hn] at h
    cases h
  | some node =>
    simp only [hn] at h
    split at h
    · rename_i hk
      split at h
      · cases h
      · rename_i hacyclic
        cases h
        exact ⟨rfl, kind?_eq_some_iff.2 ⟨node, hn, hk⟩, Bool.eq_false_of_not_eq_true hacyclic⟩
    · cases h

lemma spaced_of_ofJson (h : ofJson j = .ok g) :
    g.net.Spaced ∧ g.base.Spaced ∧ g.net.kind? g.output = some .output ∧
      g.net.isCyclic = false := by
  unfold ofJson at h
  cases hr : Raw.ofJson? j with
  | none =>
    rw [hr] at h
    cases h
  | some raw =>
    obtain ⟨hnet, hbefore⟩ := raw_spaced hr
    rw [hr] at h
    cases hg : ofRaw raw with
    | error e =>
      simp only [LoadError.ofOption, bind, Except.bind, hg, Except.mapError] at h
      cases h
    | ok g' =>
      simp only [LoadError.ofOption, bind, Except.bind, hg, Except.mapError] at h
      cases h
      obtain ⟨rfl, hchecked⟩ := ofRaw_eq_ok hg
      exact ⟨hnet, base_induction hnet hbefore, hchecked⟩

/-- A graph from a document keeps its output node through all changes, exactly if the node is also
there in the network from which another preparation would start. -/
theorem ofJson_keeps_output (h : ofJson j = .ok g) :
    (∀ cs, ∃ node, (g.changes cs).net.node? (g.changes cs).output = some node ∧
      node.kind = .output) ↔ g.base.kind? g.output = some .output := by
  obtain ⟨hs, hbase, ho, _⟩ := spaced_of_ofJson h
  constructor
  · intro hall
    -- Preparation with other options than last time starts from that network.
    obtain ⟨options, hne⟩ : ∃ options, g.finalized ≠ some options := by
      by_cases hf : g.finalized = some ⟨false, false⟩
      · exact ⟨⟨true, false⟩, by simp [hf]⟩
      · exact ⟨_, hf⟩
    have hkept := Network.kind?_eq_some_iff.2 (hall [.finalize options])
    have hnet : (g.changes [.finalize options]).net = g.base.finalize g.output options ∧
        (g.changes [.finalize options]).output = g.output := by
      simp [changes, change, Graph.finalize, hne]
    rw [hnet.1, hnet.2] at hkept
    exact (hbase.finalize g.output options).2.1 hkept
  · intro hb cs
    have hall : (g.changes cs).Throughout Network.Spaced :=
      changes_induction ⟨hs, ho, hbase, hb⟩ fun g c _ hg =>
        hg.change lasting_spaced (fun _ _ => trivial) fun options _ => (hg.base.finalize ..).1
    exact Network.kind?_eq_some_iff.1 hall.output

/-- A prepared graph whose earlier network has a light path where the output node should be. -/
def misplaced : Graph where
  net := new.net
  output := 0
  finalized := some {}
  unfinalized := some (empty.addNode (.ofKind .lightPath)).2

/-- Its document is read, and the output node is lost when it is prepared with other options. -/
theorem misplaced_loses_output : ofJson misplaced.toJson = .ok misplaced ∧
    ¬ ∀ cs, ∃ node, (misplaced.changes cs).net.node? (misplaced.changes cs).output = some node ∧
      node.kind = .output := by
  have h : ofJson misplaced.toJson = .ok misplaced := rfl
  refine ⟨h, fun hall => ?_⟩
  have hbase := (ofJson_keeps_output h).1 hall
  cases hbase

end Graph

end Shading
