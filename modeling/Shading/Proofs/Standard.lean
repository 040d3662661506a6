import Shading.Proofs.Loading

/-!
# Nodes with the sockets of their kinds

Nodes are made from kinds, which give them their sockets, and only scripts bring sockets of their
own.  No change takes sockets from a node or gives it others, and all nodes that preparation adds
are made from kinds.  So this stays true of whatever a graph is asked for (`Graph.Standard.change`),
with no bound on what scripts bring.
-/

namespace Shading

namespace Network

variable {net net' : Network} {a b : NodeId × Nat}

/-! ## Sockets and their types -/

lemma targetType?_of_input? {i : Input} (hi : net.input? b.1 b.2 = some i) :
    net.targetType? b = some i.ty := by
  obtain ⟨node, hn, hi⟩ := Option.bind_eq_some_iff.1 hi
  rw [targetType?, form?_of_node? hn, Option.bind_some, Node.form, List.getElem?_map, hi]
  rfl

lemma input?_of_targetType? {t : SocketType} (ht : net.targetType? b = some t) :
    ∃ i, net.input? b.1 b.2 = some i ∧ i.ty = t := by
  obtain ⟨f, hf, ht⟩ := Option.bind_eq_some_iff.1 ht
  obtain ⟨node, hn, rfl⟩ := exists_node?_of_form? hf
  rw [Node.form, List.getElem?_map, Option.map_map] at ht
  obtain ⟨i, hi, rfl⟩ := Option.map_eq_some_iff.1 ht
  exact ⟨i, by rw [input?, hn, Option.bind_some, hi], rfl⟩

lemma sourceType?_congr (h : ∀ n, net'.form? n = net.form? n) (a : NodeId × Nat) :
    net'.sourceType? a = net.sourceType? a := by
  rw [sourceType?, sourceType?, h]

lemma targetType?_congr (h : ∀ n, net'.form? n = net.form? n) (b : NodeId × Nat) :
    net'.targetType? b = net.targetType? b := by
  rw [targetType?, targetType?, h]

lemma form?_foldInto (value : SocketValue) (count : Nat) (b : NodeId × Nat) (n : NodeId) :
    (foldInto value (net, count) b).1.form? n = net.form? n := by
  unfold foldInto
  dsimp only
  split
  · rw [form?_unlink, form?_setValue]
  · rfl

end Network

/-! ## Networks -/

/-- All nodes but scripts have the sockets of their kinds, and vacated numbers are free. -/
structure Network.Standard (net : Network) : Prop where
  spaced : net.Spaced
  sockets : ∀ {n f}, net.form? n = some f → f.kind.isScript = false → f = (Node.ofKind f.kind).form

namespace Network.Standard

variable {net net' : Network} {node : Node}

lemma of_origin (h : net.Standard) (hs : net'.Spaced) (ho : ∀ {n f}, net'.form? n = some f →
    net.form? n = some f ∨ ∃ k, f = (Node.ofKind k).form) : net'.Standard := by
  refine ⟨hs, fun hf hk => ?_⟩
  obtain hf | ⟨k, rfl⟩ := ho hf
  · exact h.sockets hf hk
  · rfl

lemma of_extends (h : net.Standard) (he : net.Extends net') : net'.Standard := by
  refine h.of_origin he.spaced fun hf => ?_
  obtain hf | ⟨k, _, hk⟩ := he.origin hf
  · exact .inl hf
  · exact .inr ⟨k, hk⟩

lemma addNode (h : net.Standard)
    (hn : node.kind.isScript = false → node.form = (Node.ofKind node.kind).form) :
    (net.addNode node).2.Standard := by
  refine ⟨h.spaced.addNode node, fun hf hk => ?_⟩
  rw [form?, h.spaced.node?_addNode] at hf
  split at hf
  · cases hf
    exact hn hk
  · exact h.sockets hf hk

/-- The sockets of a node that is no script are those of its kind. -/
lemma form?_eq (h : net.Standard) {id : NodeId} (hn : net.node? id = some node)
    {k : NodeKind} (hk : node.kind = k) (hs : k.isScript = false) :
    net.form? id = some (Node.ofKind k).form := by
  subst hk
  rw [form?_of_node? hn]
  exact congrArg some (h.sockets (form?_of_node? hn) hs)

end Network.Standard

/-! ## Graphs -/

namespace Graph

variable {g g' : Graph}

/-- Something a graph may be asked for, other than a node that is no script and has sockets of its
own. -/
def Change.IsStandard : Change → Prop
  | .addNode node => node.kind.isScript = true
  | _ => True

/-- The network, and the one from which preparation starts, are standard. -/
abbrev Standard (g : Graph) : Prop := g.Throughout Network.Standard

lemma lasting_standard : Lasting
    (fun node => node.kind.isScript = false → node.form = (Node.ofKind node.kind).form)
    Network.Standard where
  empty := ⟨Network.tidy_empty.toSpaced, fun hf => by simp [Network.form?, Network.node?,
    Network.empty] at hf⟩
  spaced h := h.spaced
  ofKind _ _ := rfl
  addNode h := h.addNode
  setValue h _ := h.of_extends (h.spaced.setValue ..)
  unlink h id i := h.of_extends (h.spaced.unlink id i)
  link h _ _ := h.of_extends (h.spaced.link ..)

lemma standard_new : new.Standard := lasting_standard.new

lemma Standard.change (h : g.Standard) {c : Change} (hc : c.IsStandard) :
    (g.change c).Standard := by
  refine Throughout.change lasting_standard h ?_ fun options _ =>
    h.base.of_origin (h.base.spaced.finalize g.output options).1 h.base.spaced.origin_finalize
  rintro node rfl hk
  cases hk.symm.trans (show node.kind.isScript = true from hc)

end Graph

end Shading
