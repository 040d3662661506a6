import Shading.Graph.Basic
import Shading.Proofs.Network
import Shading.Proofs.Reach

/-!
# Valid networks

A network is valid if its bookkeeping is in order, every node has the sockets of its kind with
values that fit them, every link joins sockets that may be linked, and links never lead in a
circle.  The last is kept as a rank: a number for every node that grows along links.

Validity is what the checks on edits protect, so it holds of every network that edits can build.
The lemmas here say what keeps it, one operation at a time; nothing is assumed of the order in
which the operations come.
-/

namespace Shading

open List Node Option

variable {name : String} {input i : Nat} {k : NodeKind} {t : SocketType} {id : NodeId} {node : Node}
  {value : SocketValue}

/-! ## Sockets of a kind -/

/-- An input without the value it holds. -/
def Input.shape (i : Input) : String × SocketType × Bool := (i.name, i.ty, i.internal)

/-- A node with the sockets of its kind, whatever values they hold. -/
structure Node.Standard (n : Node) : Prop where
  inputs : n.inputs.map Input.shape = n.kind.inputs.map Input.shape
  outputs : n.outputs = n.kind.outputs
  fits : ∀ i ∈ n.inputs, i.value.fits i.ty = true

/-- An input that is found by name and one that is found by its position. -/
lemma Node.input?_eq_getElem? {n : Node}
    (h : n.inputIndex? name = some i) : n.input? name = n.inputs[i]? := by
  rw [inputIndex?] at h
  rw [input?, find?_eq_bind_findIdx?_getElem?, h, bind_some]

/-- Changing a value changes no socket. -/
lemma Node.shapes_setValue (n : Node) (input : Nat) (value : SocketValue) :
    (n.setValue input value).inputs.map Input.shape = n.inputs.map Input.shape := by
  refine ext_getElem? fun k => ?_
  simp only [setValue, getElem?_map, getElem?_modify]
  by_cases e : input = k
  · subst e
    cases n.inputs[input]? <;> simp [Input.shape]
  · simp [e]

/-- A node without the values that its inputs hold. -/
structure Node.Form where
  kind : NodeKind
  inputs : List (String × SocketType × Bool)
  outputs : List Output

def Node.form (n : Node) : Form := ⟨n.kind, n.inputs.map Input.shape, n.outputs⟩

@[simp] lemma Node.form_setValue (n : Node) (input : Nat) (value : SocketValue) :
    (n.setValue input value).form = n.form := by
  rw [form, n.shapes_setValue]
  rfl

/-- Positions of names are those of the form. -/
lemma Node.inputIndex?_eq_of_form {n m : Node} (h : n.form = m.form) (name : String) :
    n.inputIndex? name = m.inputIndex? name := by
  have key : ∀ n : Node, n.inputIndex? name = n.form.inputs.findIdx? fun s => s.1 == name := by
    intro n
    rw [form, findIdx?_map]
    rfl
  rw [key, key, h]

lemma Node.outputIndex?_eq_of_form {n m : Node} (h : n.form = m.form) (name : String) :
    n.outputIndex? name = m.outputIndex? name := by
  have houtputs : n.outputs = m.outputs := congrArg Form.outputs h
  rw [outputIndex?, outputIndex?, houtputs]

namespace Node.Standard

variable {n : Node}

lemma ofKind (kind : NodeKind) : (ofKind kind).Standard where
  inputs := rfl
  outputs := rfl
  fits := by cases kind <;> simp [Node.ofKind, NodeKind.inputs, Input.float, Input.gray, Input.vec3,
    Input.closure, Input.weight, SocketValue.fits, SocketValue.form, SocketValue.zero]

lemma shape_getElem? (h : n.Standard) (i : Nat) :
    (n.inputs[i]?).map Input.shape = (n.kind.inputs[i]?).map Input.shape := by
  rw [← getElem?_map, ← getElem?_map, h.inputs]

lemma form_eq (h : n.Standard) : n.form = (Node.ofKind n.kind).form := by
  rw [form, h.inputs, h.outputs]
  rfl

/-- Positions of names are those of the kind. -/
lemma inputIndex? (h : n.Standard) (name : String) :
    n.inputIndex? name = (Node.ofKind n.kind).inputIndex? name :=
  inputIndex?_eq_of_form h.form_eq name

lemma outputIndex? (h : n.Standard) (name : String) :
    n.outputIndex? name = (Node.ofKind n.kind).outputIndex? name :=
  outputIndex?_eq_of_form h.form_eq name

/-- Changing a value to one that fits keeps a node standard. -/
lemma setValue (h : n.Standard) (hv : ∀ i, n.inputs[input]? = some i → value.fits i.ty = true) :
    (n.setValue input value).Standard := by
  refine ⟨?_, h.outputs, ?_⟩
  · exact (n.shapes_setValue input value).trans h.inputs
  · intro i hi
    obtain ⟨k, hk⟩ := mem_iff_getElem?.1 hi
    simp only [Node.setValue, getElem?_modify] at hk
    obtain ⟨j, hj, hji⟩ := map_eq_some_iff.1 hk
    split at hji
    · rename_i e
      subst e hji
      exact hv j hj
    · subst hji
      exact h.fits j (mem_of_getElem? hj)

end Node.Standard

/-- A kind that gives or takes closures.  Nodes of such kinds come after all others: what feeds a
number or a color never depends on a closure. -/
def NodeKind.handlesClosures (k : NodeKind) : Bool :=
  k.isClosure || k.special == .combineClosure || k.special == .output

namespace NodeKind

lemma length_inputs_le (k : NodeKind) : k.inputs.length ≤ 5 := by
  cases k <;> simp [inputs]

lemma length_outputs_le (k : NodeKind) : k.outputs.length ≤ 5 := by
  cases k <;> simp [outputs]

lemma ty_eq_closure_of_mem_outputs (hk : k.handlesClosures = true) {o : Output}
    (ho : o ∈ k.outputs) : o.ty = .closure := by
  cases k <;> simp_all [handlesClosures, isClosure, special, outputs]

lemma handlesClosures_of_mem_inputs {i : Input} (hi : i ∈ k.inputs)
    (ht : i.ty = .closure) : k.handlesClosures = true := by
  have key : (k.inputs.all fun i => i.ty != .closure || k.handlesClosures) = true := by
    cases k <;> rfl
  have := all_eq_true.1 key i hi
  simpa [ht] using this

end NodeKind

lemma SocketType.linksTo_closure : closure.linksTo t = true ↔ t = closure := by
  cases t <;> decide

namespace Network

variable {net net' : Network} {rank : NodeId → Nat} {a b : NodeId × Nat} {l : NodeKind}

/-! ## Validity -/

def kind? (net : Network) (id : NodeId) : Option NodeKind := (net.node? id).map kind

def outputType? (net : Network) (a : NodeId × Nat) : Option SocketType :=
  (net.kind? a.1).bind fun k => (k.outputs[a.2]?).map Output.ty

def inputType? (net : Network) (b : NodeId × Nat) : Option SocketType :=
  (net.kind? b.1).bind fun k => (k.inputs[b.2]?).map Input.ty

/-- An output and an input that may be linked. -/
def Joins (net : Network) (a b : NodeId × Nat) : Prop :=
  ∃ s t, net.outputType? a = some s ∧ net.inputType? b = some t ∧ s.linksTo t = true

lemma kind?_eq_some_iff :
    net.kind? id = some k ↔ ∃ node, net.node? id = some node ∧ node.kind = k :=
  map_eq_some_iff

lemma kind?_of_node? (h : net.node? id = some node) :
    net.kind? id = some node.kind := kind?_eq_some_iff.2 ⟨node, h, rfl⟩

lemma kind?_congr (h : net'.node? id = net.node? id) : net'.kind? id = net.kind? id := by
  rw [kind?, h, kind?]

lemma outputType?_eq_some_iff : net.outputType? a = some t ↔
      ∃ k o, net.kind? a.1 = some k ∧ k.outputs[a.2]? = some o ∧ o.ty = t := by
  simp [outputType?, bind_eq_some_iff]

lemma inputType?_eq_some_iff : net.inputType? b = some t ↔
      ∃ k i, net.kind? b.1 = some k ∧ k.inputs[b.2]? = some i ∧ i.ty = t := by
  simp [inputType?, bind_eq_some_iff]

@[simp] lemma kind?_setValue (id n : NodeId) (input : Nat) (value : SocketValue) :
    (net.setValue id input value).kind? n = net.kind? n := by
  rw [kind?, node?_setValue, kind?]
  split
  · cases net.node? n <;> rfl
  · rfl

@[simp] lemma kind?_unlink (id n : NodeId) (input : Nat) :
    (net.unlink id input).kind? n = net.kind? n := kind?_congr (node?_unlink ..)

@[simp] lemma kind?_link (source : NodeId × Nat) (target n : NodeId) (input : Nat) :
    (net.link source target input).kind? n = net.kind? n := kind?_congr (node?_link ..)

/-! ## Forms -/

def form? (net : Network) (id : NodeId) : Option Form := (net.node? id).map form

lemma form?_of_node? (h : net.node? id = some node) : net.form? id = some node.form := by
  rw [form?, h, map_some]

lemma exists_node?_of_form? (h : net.form? id = some f) :
    ∃ node, net.node? id = some node ∧ node.form = f := map_eq_some_iff.1 h

lemma form?_congr (h : net'.node? id = net.node? id) : net'.form? id = net.form? id := by
  rw [form?, form?, h]

lemma kind?_eq_form? (id : NodeId) : net.kind? id = (net.form? id).map Form.kind := by
  rw [kind?, form?, Option.map_map]
  rfl

lemma kind?_of_form? (h : ∀ {f}, net.form? id = some f → net'.form? id = some f)
    (hk : net.kind? id = some k) : net'.kind? id = some k := by
  rw [kind?_eq_form?] at hk ⊢
  obtain ⟨f, hf, rfl⟩ := map_eq_some_iff.1 hk
  rw [h hf, map_some]

@[simp] lemma form?_setValue (id n : NodeId) (input : Nat) (value : SocketValue) :
    (net.setValue id input value).form? n = net.form? n := by
  rw [form?, form?, node?_setValue]
  split
  · rw [Option.map_map]
    congr 1
    funext node
    exact form_setValue node input value
  · rfl

lemma exists_form? (h : ∃ k, net.kind? id = some k) : ∃ f, net.form? id = some f := by
  obtain ⟨k, hk⟩ := h
  obtain ⟨node, hn, _⟩ := kind?_eq_some_iff.1 hk
  exact ⟨node.form, form?_of_node? hn⟩

@[simp] lemma form?_unlink (id n : NodeId) (input : Nat) :
    (net.unlink id input).form? n = net.form? n := form?_congr (node?_unlink ..)

@[simp] lemma form?_link (source : NodeId × Nat) (target n : NodeId) (input : Nat) :
    (net.link source target input).form? n = net.form? n := form?_congr (node?_link ..)

/-- A node that is there is no new one. -/
lemma Spaced.addNode_ne (h : net.Spaced) (hf : net.form? id = some f) (node : Node) :
    (net.addNode node).1 ≠ id := by
  obtain ⟨_, hn, _⟩ := map_eq_some_iff.1 hf
  exact (ne_of_node? (h.node?_addNode_fst node) hn).symm

lemma Spaced.form?_addNode (h : net.Spaced) (node : Node) (hf : net.form? id = some f) :
    (net.addNode node).2.form? id = some f := by
  rwa [form?, h.node?_addNode, if_neg (h.addNode_ne hf node).symm]

lemma Spaced.form?_addNode_fst (h : net.Spaced) (node : Node) :
    (net.addNode node).2.form? (net.addNode node).1 = some node.form := by
  rw [form?, h.node?_addNode, if_pos rfl, map_some]

/-! ## Links that may be made -/

namespace Joins

lemma congr (ha : net'.kind? a.1 = net.kind? a.1) (hb : net'.kind? b.1 = net.kind? b.1) :
    net'.Joins a b ↔ net.Joins a b := by
  rw [Joins, Joins, outputType?, outputType?, inputType?, inputType?, ha, hb]

lemma source (h : net.Joins a b) : ∃ k, net.kind? a.1 = some k := by
  obtain ⟨s, t, hs, _, _⟩ := h
  obtain ⟨k, _, hk, _⟩ := outputType?_eq_some_iff.1 hs
  exact ⟨k, hk⟩

lemma target (h : net.Joins a b) : ∃ k, net.kind? b.1 = some k := by
  obtain ⟨s, t, _, ht, _⟩ := h
  obtain ⟨k, _, hk, _⟩ := inputType?_eq_some_iff.1 ht
  exact ⟨k, hk⟩

lemma fits_output (h : net.Joins a b) : Fits a.2 := by
  obtain ⟨s, t, hs, _, _⟩ := h
  obtain ⟨k, o, _, ho, _⟩ := outputType?_eq_some_iff.1 hs
  obtain ⟨hlt, _⟩ := List.getElem?_eq_some_iff.1 ho
  have := k.length_outputs_le
  omega

lemma fits_input (h : net.Joins a b) : Fits b.2 := by
  obtain ⟨s, t, _, ht, _⟩ := h
  obtain ⟨k, i, _, hi, _⟩ := inputType?_eq_some_iff.1 ht
  obtain ⟨hlt, _⟩ := List.getElem?_eq_some_iff.1 hi
  have := k.length_inputs_le
  omega

/-- Closures are linked to closures only. -/
lemma handlesClosures (h : net.Joins a b) (ha : net.kind? a.1 = some k)
    (hb : net.kind? b.1 = some l) (hk : k.handlesClosures = true) :
    l.handlesClosures = true := by
  obtain ⟨s, t, hs, ht, hst⟩ := h
  obtain ⟨k', o, hk', ho, rfl⟩ := outputType?_eq_some_iff.1 hs
  obtain ⟨l', i, hl', hi, rfl⟩ := inputType?_eq_some_iff.1 ht
  rw [ha] at hk'
  rw [hb] at hl'
  cases hk'
  cases hl'
  rw [NodeKind.ty_eq_closure_of_mem_outputs hk (mem_of_getElem? ho),
    SocketType.linksTo_closure] at hst
  exact NodeKind.handlesClosures_of_mem_inputs (mem_of_getElem? hi) hst

end Joins

/-! ## Conditions on nodes and links -/

/-- A condition on links that looks at the sockets of the nodes at their ends only. -/
class Wiring (E : Network → NodeId × Nat → NodeId × Nat → Prop) : Prop where
  ends {net s t} : E net s t → (∃ f, net.form? s.1 = some f) ∧ ∃ f, net.form? t.1 = some f
  congr {net net' s t} : net'.form? s.1 = net.form? s.1 → net'.form? t.1 = net.form? t.1 →
    E net s t → E net' s t

/-- The bookkeeping is in order, and a condition holds of all nodes and another one of all links. -/
structure Wired (N : Node → Prop) (E : Network → NodeId × Nat → NodeId × Nat → Prop)
    (net : Network) : Prop where
  tidy : net.Tidy
  nodes : ∀ {id node}, net.node? id = some node → N node
  feeds : ∀ {a b}, net.Feeds a b → E net a b

namespace Wired

variable {N : Node → Prop} {E : Network → NodeId × Nat → NodeId × Nat → Prop}

lemma empty : Network.empty.Wired N E where
  tidy := tidy_empty
  nodes h := by simp [Network.empty, node?] at h
  feeds h := absurd h (not_feeds_empty _ _)

variable [Wiring E] (h : net.Wired N E)
include h

lemma ends (hab : net.Feeds a b) :
    (∃ f, net.form? a.1 = some f) ∧ ∃ f, net.form? b.1 = some f := Wiring.ends (h.feeds hab)

lemma mem_ids (hab : net.Feeds a b) : a.1 ∈ net.ids ∧ b.1 ∈ net.ids := by
  obtain ⟨⟨f, hf⟩, g, hg⟩ := h.ends hab
  obtain ⟨m, hm, _⟩ := exists_node?_of_form? hf
  obtain ⟨n, hn, _⟩ := exists_node?_of_form? hg
  exact ⟨Network.mem_ids.2 ⟨m, hm⟩, Network.mem_ids.2 ⟨n, hn⟩⟩

/-- A network with fewer links and the same sockets at their ends. -/
lemma of_feeds (ht : net'.Tidy) (hn : ∀ {id node}, net'.node? id = some node → N node)
    (hf : ∀ {a b}, net'.Feeds a b → net.Feeds a b ∧ net'.form? a.1 = net.form? a.1 ∧
      net'.form? b.1 = net.form? b.1) : net'.Wired N E :=
  ⟨ht, hn, fun hab => Wiring.congr (hf hab).2.1 (hf hab).2.2 (h.feeds (hf hab).1)⟩

lemma addNode (hn : N node) : (net.addNode node).2.Wired N E := by
  refine h.of_feeds (h.tidy.addNode _) (fun {id m} hm => ?_) fun {a b} hab => ?_
  · rw [h.tidy.node?_addNode] at hm
    split at hm
    · cases hm
      exact hn
    · exact h.nodes hm
  · rw [feeds_addNode] at hab
    obtain ⟨⟨f, hf⟩, g, hg⟩ := h.ends hab
    exact ⟨hab, (h.tidy.form?_addNode node hf).trans hf.symm,
      (h.tidy.form?_addNode node hg).trans hg.symm⟩

lemma setValue (hv : ∀ node, net.node? id = some node → N (node.setValue input value)) :
    (net.setValue id input value).Wired N E := by
  refine h.of_feeds (h.tidy.setValue ..) (fun {n m} hm => ?_)
    fun hab => ⟨hab, form?_setValue .., form?_setValue ..⟩
  rw [node?_setValue] at hm
  split at hm
  · rename_i e
    subst e
    obtain ⟨old, hold, rfl⟩ := map_eq_some_iff.1 hm
    exact hv old hold
  · exact h.nodes hm

lemma unlink (id : NodeId) (input : Nat) : (net.unlink id input).Wired N E :=
  h.of_feeds (h.tidy.unlink id input) (fun hn => h.nodes ((node?_unlink ..) ▸ hn))
    fun hab => ⟨(h.tidy.feeds_unlink.1 hab).1, form?_unlink .., form?_unlink ..⟩

lemma removeOutgoing (id : NodeId) : (net.removeOutgoing id).Wired N E := by
  obtain ⟨ht, hn, hf⟩ := h.tidy.removeOutgoing_spec id
  exact h.of_feeds ht (fun hnode => h.nodes (hn _ ▸ hnode)) fun {a b} hab =>
    ⟨((hf a b).1 hab).1, form?_congr (hn _), form?_congr (hn _)⟩

lemma link {source : NodeId × Nat} {target : NodeId} (ho : Fits source.2) (hi : Fits input)
    (hE : E net source (target, input)) : (net.link source target input).Wired N E where
  tidy := h.tidy.link source target hi
  nodes hn := h.nodes ((node?_link ..) ▸ hn)
  feeds {a b} hab := by
    refine Wiring.congr (form?_link ..) (form?_link ..) ?_
    obtain ⟨rfl, rfl⟩ | ⟨hab, _⟩ := (h.tidy.feeds_link ho hi).1 hab
    · exact hE
    · exact h.feeds hab

end Wired

/-! ## Validity -/

/-- The link joins sockets that may be linked, and leads to a higher rank. -/
def JoinsBelow (rank : NodeId → Nat) (net : Network) (a b : NodeId × Nat) : Prop :=
  net.Joins a b ∧ rank a.1 < rank b.1

instance : Wiring (JoinsBelow rank) where
  ends h := ⟨exists_form? h.1.source, exists_form? h.1.target⟩
  congr {net net' a b} ha hb h := by
    refine ⟨(Joins.congr ?_ ?_).2 h.1, h.2⟩
    · rw [kind?_eq_form?, ha, ← kind?_eq_form?]
    · rw [kind?_eq_form?, hb, ← kind?_eq_form?]

/-- Validity with a given rank. -/
abbrev ValidBy (net : Network) (rank : NodeId → Nat) : Prop := net.Wired Standard (JoinsBelow rank)

lemma ValidBy.standard (h : net.ValidBy rank) (hn : net.node? id = some node) : node.Standard :=
  h.nodes hn

lemma ValidBy.joins (h : net.ValidBy rank) (hab : net.Feeds a b) :
    net.Joins a b := (h.feeds hab).1

lemma ValidBy.ranked (h : net.ValidBy rank) (hab : net.Feeds a b) :
    rank a.1 < rank b.1 := (h.feeds hab).2

/-- A network in which everything is in order. -/
def Valid (net : Network) : Prop := ∃ rank, net.ValidBy rank

lemma Valid.tidy (h : net.Valid) : net.Tidy := h.choose_spec.tidy

lemma Valid.standard (h : net.Valid) (hn : net.node? id = some node) :
    node.Standard := h.choose_spec.standard hn

lemma Valid.joins (h : net.Valid) (hab : net.Feeds a b) : net.Joins a b := h.choose_spec.joins hab

/-- In a valid network the type of an input is that of the node's own socket. -/
lemma Valid.inputType?_eq (h : net.Valid) (hn : net.node? id = some node) (i : Nat) :
    net.inputType? (id, i) = (node.inputs[i]?).map Input.ty := by
  have := congrArg (Option.map fun s : String × SocketType × Bool => s.2.1)
    ((h.standard hn).shape_getElem? i)
  rw [Option.map_map, Option.map_map] at this
  rw [inputType?, kind?_of_node? hn, bind_some]
  exact this.symm

lemma Valid.outputType?_eq (h : net.Valid) (hn : net.node? id = some node) (o : Nat) :
    net.outputType? (id, o) = (node.outputs[o]?).map Output.ty := by
  rw [outputType?, kind?_of_node? hn, bind_some, (h.standard hn).outputs]

/-! ## Operations that keep the rank -/

/-- A new number has no links yet. -/
lemma ValidBy.ne_addNode (h : net.ValidBy rank) (node : Node)
    (hid : net.kind? id = some k) : id ≠ (net.addNode node).1 := by
  obtain ⟨_, hn, _⟩ := kind?_eq_some_iff.1 hid
  exact ne_of_node? (h.tidy.node?_addNode_fst node) hn

lemma ValidBy.addNode (h : net.ValidBy rank) (kind : NodeKind) :
    (net.addNode (.ofKind kind)).2.ValidBy rank := Wired.addNode h (.ofKind kind)

lemma ValidBy.setValue (h : net.ValidBy rank)
    (hv : ∀ t, net.inputType? (id, input) = some t → value.fits t = true) :
    (net.setValue id input value).ValidBy rank := by
  refine Wired.setValue h fun node hn => (h.standard hn).setValue fun i hi => hv _ ?_
  rw [Valid.inputType?_eq ⟨rank, h⟩ hn, hi, map_some]

lemma ValidBy.link (h : net.ValidBy rank) {source : NodeId × Nat} {target : NodeId}
    (hj : net.Joins source (target, input)) (hr : rank source.1 < rank target) :
    (net.link source target input).ValidBy rank :=
  Wired.link h hj.fits_output hj.fits_input ⟨hj, hr⟩

/-! ## Operations that change the rank -/

lemma ValidBy.rerank (h : net.ValidBy rank) {rank' : NodeId → Nat}
    (hr : ∀ {a b}, net.Feeds a b → rank' a.1 < rank' b.1) : net.ValidBy rank' :=
  ⟨h.tidy, h.nodes, fun hab => ⟨h.joins hab, hr hab⟩⟩

/-- Paths can be prolonged by links between nodes that are there. -/
lemma hasPath_step (hab : net.Feeds a b) (ha : a.1 ∈ net.ids)
    (hb : b.1 ∈ net.ids) (hp : net.hasPath id a.1 = true) : net.hasPath id b.1 = true := by
  have hlt : ∀ {n}, n ∈ net.ids → n ∈ range net.nodes.size := mem_of_mem_filter
  simp only [hasPath, Bool.or_eq_true, beq_iff_eq, contains_iff_mem,
    mem_reachable nodup_range, mem_singleton, exists_eq_left] at hp ⊢
  have w : Way net.successors (· ∈ range net.nodes.size) id a.1 := by
    obtain rfl | w := hp
    · exact .here (hlt ha)
    · exact w
  exact .inr (w.snoc (mem_successors.2 ⟨a.2, b.2, hab⟩) (hlt hb))

lemma mem_ids_of_kind? (hk : net.kind? id = some k) : id ∈ net.ids := by
  obtain ⟨node, hn, _⟩ := kind?_eq_some_iff.1 hk
  exact mem_ids.2 ⟨node, hn⟩

/-- If links from some nodes lead to such nodes only, some rank puts these above any other node. -/
lemma exists_rank_of_upper (upper : NodeId → Prop)
    (hr : ∀ {a b}, net.Feeds a b → rank a.1 < rank b.1)
    (hup : ∀ {a b}, net.Feeds a b → upper a.1 → upper b.1) {source target : NodeId}
    (hs : ¬ upper source) (ht : upper target) :
    ∃ rank' : NodeId → Nat, (∀ {a b}, net.Feeds a b → rank' a.1 < rank' b.1) ∧
      rank' source < rank' target := by
  classical
  let lifted : NodeId → Nat := fun n => rank n + if upper n then rank source + 1 else 0
  refine ⟨lifted, fun {a b} hab => ?_, ?_⟩
  · have hlt := hr hab
    simp only [lifted]
    by_cases ha : upper a.1
    · rw [if_pos ha, if_pos (hup hab ha)]
      omega
    · rw [if_neg ha]
      split <;> omega
  · simp only [lifted, if_neg hs, if_pos ht]
    omega

/-- If no path leads from a node to another one, some rank puts it above the other. -/
lemma exists_rank_of_hasPath (hr : ∀ {a b}, net.Feeds a b → rank a.1 < rank b.1)
    (hends : ∀ {a b}, net.Feeds a b → a.1 ∈ net.ids ∧ b.1 ∈ net.ids) {source target : NodeId}
    (hp : net.hasPath target source = false) :
    ∃ rank' : NodeId → Nat, (∀ {a b}, net.Feeds a b → rank' a.1 < rank' b.1) ∧
      rank' source < rank' target := by
  -- Everything the target leads to moves above the source.
  refine exists_rank_of_upper (net.hasPath target · = true) hr (fun hab => ?_) (by simp [hp])
    (by simp [hasPath])
  exact hasPath_step hab (hends hab).1 (hends hab).2

/-- A link is safe if no path leads from its target to its source. -/
lemma Valid.link_of_hasPath (h : net.Valid) {source : NodeId × Nat} {target : NodeId}
    (hj : net.Joins source (target, input))
    (hp : net.hasPath target source.1 = false) : (net.link source target input).Valid := by
  obtain ⟨rank, h⟩ := h
  obtain ⟨rank', hr, hlt⟩ := exists_rank_of_hasPath h.ranked h.mem_ids hp
  exact ⟨rank', (h.rerank hr).link hj hlt⟩

/-- A link to one of some nodes is safe if links from these lead to these only. -/
lemma Valid.link_of_upper (h : net.Valid) (upper : NodeId → Prop) {source : NodeId × Nat}
    {target : NodeId} (hj : net.Joins source (target, input))
    (hup : ∀ {a b}, net.Feeds a b → upper a.1 → upper b.1) (hs : ¬ upper source.1)
    (ht : upper target) : (net.link source target input).Valid := by
  obtain ⟨rank, h⟩ := h
  obtain ⟨rank', hr, hlt⟩ := exists_rank_of_upper upper h.ranked hup hs ht
  exact ⟨rank', (h.rerank hr).link hj hlt⟩

/-- A link into a node that feeds nothing is safe. -/
lemma Valid.link_into_end (h : net.Valid) {source : NodeId × Nat} {target : NodeId}
    (hj : net.Joins source (target, input)) (hend : ∀ o b, ¬ net.Feeds (target, o) b)
    (hne : source.1 ≠ target) : (net.link source target input).Valid :=
  h.link_of_upper (· = target) hj (fun {a b} hab e => absurd (e ▸ hab) (hend a.2 b)) hne rfl

/-- A link from a node without closures to one with closures is safe. -/
lemma Valid.link_to_closures (h : net.Valid) {source : NodeId × Nat} {target : NodeId}
    (hj : net.Joins source (target, input))
    (hs : net.kind? source.1 = some k) (hk : k.handlesClosures = false)
    (ht : net.kind? target = some l) (hlc : l.handlesClosures = true) :
    (net.link source target input).Valid := by
  -- Every node with closures moves above the source.
  refine h.link_of_upper (fun n => ∃ k, net.kind? n = some k ∧ k.handlesClosures = true) hj
    (fun hab => ?_) ?_ ⟨l, ht, hlc⟩
  · rintro ⟨k, hk, hkc⟩
    obtain ⟨l, hl⟩ := (h.joins hab).target
    exact ⟨l, hl, (h.joins hab).handlesClosures hk hl hkc⟩
  · rintro ⟨k', hk', hkc⟩
    rw [hs] at hk'
    cases hk'
    simp [hk] at hkc

end Network

/-! ## Sockets by name -/

namespace Graph

variable {g : Graph} {o : Nat}

lemma require_eq_ok_iff : g.require id = .ok node ↔ g.net.node? id = some node := by
  unfold require
  cases g.net.node? id <;> simp

lemma exists_of_bind_eq_ok {ε α β : Type} {x : Except ε α} {f : α → Except ε β} {b : β}
    (h : (x >>= f) = .ok b) : ∃ a, x = .ok a ∧ f a = .ok b := by
  cases x with
  | error e => cases h
  | ok a => exact ⟨a, rfl, h⟩

lemma requireInput_eq_ok (h : g.requireInput id name = .ok (i, t)) :
    ∃ node, g.net.node? id = some node ∧ node.inputIndex? name = some i ∧
      (node.inputs[i]?).map Input.ty = some t := by
  obtain ⟨node, hr, h⟩ := exists_of_bind_eq_ok h
  split at h
  · rename_i index input hidx hinput
    cases h
    refine ⟨node, require_eq_ok_iff.1 hr, hidx, ?_⟩
    rw [← input?_eq_getElem? hidx, hinput, map_some]
  · cases h

lemma exists_requireInput (hn : g.net.node? id = some node) (hi : node.inputIndex? name = some i) :
    ∃ t, g.requireInput id name = .ok (i, t) := by
  have hlt : i < node.inputs.length := (findIdx?_eq_some_iff_getElem.1 hi).1
  have hinput : node.input? name = some node.inputs[i] := by
    rw [input?_eq_getElem? hi, getElem?_eq_getElem hlt]
  refine ⟨node.inputs[i].ty, ?_⟩
  simp only [requireInput, require_eq_ok_iff.2 hn, bind, Except.bind, hi, hinput]
  rfl

lemma exists_requireOutput
    (hn : g.net.node? id = some node) (ho : node.outputIndex? name = some o) :
    ∃ t, g.requireOutput id name = .ok (o, t) := by
  have ho' : node.outputs.findIdx? (fun o => o.name == name) = some o := ho
  have hlt : o < node.outputs.length := (findIdx?_eq_some_iff_getElem.1 ho').1
  have houtput : node.outputs.find? (fun o => o.name == name) = some node.outputs[o] := by
    rw [find?_eq_bind_findIdx?_getElem?, ho', bind_some, getElem?_eq_getElem hlt]
  refine ⟨node.outputs[o].ty, ?_⟩
  simp only [requireOutput, require_eq_ok_iff.2 hn, bind, Except.bind, ho', houtput]
  rfl

lemma requireOutput_eq_ok (h : g.requireOutput id name = .ok (o, t)) :
    ∃ node, g.net.node? id = some node ∧ node.outputIndex? name = some o ∧
      (node.outputs[o]?).map Output.ty = some t := by
  obtain ⟨node, hr, h⟩ := exists_of_bind_eq_ok h
  split at h
  · rename_i index output hidx houtput
    cases h
    refine ⟨node, require_eq_ok_iff.1 hr, hidx, ?_⟩
    rw [find?_eq_bind_findIdx?_getElem?, hidx, bind_some] at houtput
    rw [houtput, map_some]
  · cases h

end Graph

end Shading
