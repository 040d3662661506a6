import Shading.Proofs.Editing
import Shading.Proofs.Scripts

/-!
# Sequences of changes

Whoever edits a graph may ask for anything, in any order: nodes with any sockets, values, links, the
removal of links, a preparation.  What is refused leaves the graph as it was (`Graph.change`).

The sockets of a node need not be those of its kind, so links are judged by the sockets that the
nodes bring (`Network.Fit`).  `Network.Fitted` is what the checks on edits protect then: no input has
two links, every link fits, and a rank grows along links.  It holds after every sequence of edits
(`Graph.changes_wellFormed`), as long as links can number the sockets.
-/

namespace Shading

open List Network Node

namespace Graph

/-- Something a graph may be asked for. -/
inductive Change where
  | add (kind : NodeKind)
  | addNode (node : Node)
  | setInput (id : NodeId) (name : String) (value : SocketValue)
  | connect (source : NodeId) (output : String) (target : NodeId) (input : String)
  | disconnect (target : NodeId) (input : String)
  | finalize (options : FinalizeOptions)

/-- The graph after a change; what is refused leaves it as it was. -/
def change (g : Graph) : Change → Graph
  | .add kind => (g.add kind).2
  | .addNode node => (g.addNode node).2
  | .setInput id name value => (g.setInput id name value).toOption.getD g
  | .connect source output target input => (g.connect source output target input).toOption.getD g
  | .disconnect target input => ((g.disconnect target input).toOption.map Prod.snd).getD g
  | .finalize options => g.finalize options

def changes (g : Graph) (cs : List Change) : Graph := cs.foldl change g

/-- What holds of a graph holds after an attempt, if it holds after its success. -/
lemma attempt {P : Graph → Prop} {g : Graph} {x : Except GraphError Graph} (hg : P g)
    (h : ∀ g', x = .ok g' → P g') : P (x.toOption.getD g) := by
  cases x with
  | error e => exact hg
  | ok g' => exact h g' rfl

lemma attempt_disconnect {P : Graph → Prop} {g : Graph} {target : NodeId} {input : String}
    (hg : P g) (h : ∀ i, P { g with net := g.net.unlink target i }) :
    P (g.change (.disconnect target input)) := by
  rw [change]
  cases hd : g.disconnect target input with
  | error e => exact hg
  | ok r =>
    obtain ⟨_, i, _, _, hg'⟩ := disconnect_eq_ok hd
    rw [Except.toOption, Option.map_some, Option.getD_some, hg']
    exact h i

/-- What every change keeps is kept by a sequence of changes. -/
lemma changes_induction {P : Graph → Prop} {g : Graph} {cs : List Change} (hg : P g)
    (h : ∀ g, ∀ c ∈ cs, P g → P (g.change c)) : P (g.changes cs) := by
  induction cs generalizing g with
  | nil => exact hg
  | cons c cs ih =>
    exact ih (h g c mem_cons_self hg) fun g d hd => h g d (mem_cons_of_mem _ hd)

end Graph

namespace Network

variable {net net' : Network} {rank : NodeId → Nat} {a b : NodeId × Nat} {id target : NodeId}

/-! ## Links that fit -/

lemma fit_iff : net.Fit a b ↔ ∃ source output target input,
    net.node? a.1 = some source ∧ source.outputs[a.2]? = some output ∧
      net.node? b.1 = some target ∧ target.inputs[b.2]? = some input ∧
        output.ty.linksTo input.ty = true := by
  constructor
  · rintro ⟨s, t, hs, ht, hst⟩
    obtain ⟨f, hf, hs⟩ := Option.bind_eq_some_iff.1 hs
    obtain ⟨f', hf', ht⟩ := Option.bind_eq_some_iff.1 ht
    obtain ⟨source, hsource, rfl⟩ := exists_node?_of_form? hf
    obtain ⟨target, htarget, rfl⟩ := exists_node?_of_form? hf'
    obtain ⟨output, ho, rfl⟩ := Option.map_eq_some_iff.1 hs
    rw [form, getElem?_map, Option.map_map] at ht
    obtain ⟨input, hi, rfl⟩ := Option.map_eq_some_iff.1 ht
    exact ⟨source, output, target, input, hsource, ho, htarget, hi, hst⟩
  · rintro ⟨source, output, target, input, hsource, ho, htarget, hi, hst⟩
    refine ⟨output.ty, input.ty, ?_, ?_, hst⟩
    · rw [sourceType?, form?_of_node? hsource, Option.bind_some, form, ho, Option.map_some]
    · rw [targetType?, form?_of_node? htarget, Option.bind_some, form, getElem?_map, hi]
      rfl

/-- A condition on nodes that kinds meet, that values do not change, and under which links can number
the sockets. -/
class Addressing (N : Node → Prop) : Prop where
  addressable {n} : N n → n.Addressable
  ofKind (k : NodeKind) : N (.ofKind k)
  setValue {n i value} : N n → (∀ input, n.inputs[i]? = some input → value.fits input.ty = true) →
    N (n.setValue i value)

instance : Addressing Addressable where
  addressable h := h
  ofKind := addressable_ofKind
  setValue h _ := ⟨(length_modify ..).trans_le h.inputs, h.outputs⟩

/-- The link fits and leads to a higher rank. -/
def FitsBelow (rank : NodeId → Nat) (net : Network) (a b : NodeId × Nat) : Prop :=
  net.Fit a b ∧ rank a.1 < rank b.1

instance : Wiring (FitsBelow rank) where
  ends h := h.1.ends
  congr ha hb h := ⟨h.1.congr ha hb, h.2⟩

/-- The bookkeeping is in order, the nodes meet a condition, links fit, and a rank grows along
them. -/
abbrev Fitted (net : Network) (N : Node → Prop) (rank : NodeId → Nat) : Prop :=
  net.Wired N (FitsBelow rank)

section

variable {N : Node → Prop} [Addressing N] (h : net.Fitted N rank)
include h

omit [Addressing N] in
lemma Fitted.fit (hab : net.Feeds a b) : net.Fit a b := (h.feeds hab).1

omit [Addressing N] in
lemma Fitted.ranked (hab : net.Feeds a b) : rank a.1 < rank b.1 := (h.feeds hab).2

lemma Fitted.fits (hab : net.Fit a b) : Fits a.2 ∧ Fits b.2 :=
  hab.fits fun hn => Addressing.addressable (h.nodes hn)

lemma Fitted.setValue {input : Nat} {value : SocketValue}
    (hv : ∀ i, net.input? id input = some i → value.fits i.ty = true) :
    (net.setValue id input value).Fitted N rank := by
  refine Wired.setValue h fun node hn => Addressing.setValue (h.nodes hn) fun i hi => hv i ?_
  rw [input?, hn, Option.bind_some, hi]

/-- A link is safe if no path leads from its target to its source. -/
lemma Fitted.link_of_hasPath {input : Nat}
    (hfit : net.Fit a (target, input)) (hp : net.hasPath target a.1 = false) :
    ∃ rank, (net.link a target input).Fitted N rank := by
  obtain ⟨rank', hr, hlt⟩ := exists_rank_of_hasPath h.ranked h.mem_ids hp
  have h' : net.Fitted N rank' := ⟨h.tidy, h.nodes, fun hab => ⟨h.fit hab, hr hab⟩⟩
  exact ⟨rank', Wired.link h' (h.fits hfit).1 (h.fits hfit).2 ⟨hfit, hlt⟩⟩

end

/-! ## Counting links -/

def inputsAt (net : Network) (id : NodeId) : List (NodeId × Nat) :=
  (range ((net.node? id).elim 0 fun node => node.inputs.length)).map fun i => (id, i)

def linkedInputs (net : Network) : List (NodeId × Nat) :=
  (net.ids.flatMap net.inputsAt).filter fun b => net.isInputLinked b.1 b.2

lemma mem_inputsAt : b ∈ net.inputsAt id ↔
    b.1 = id ∧ ∃ node, net.node? id = some node ∧ b.2 < node.inputs.length := by
  obtain ⟨n, i⟩ := b
  simp only [inputsAt, mem_map, mem_range, Prod.mk.injEq, exists_eq_right_right]
  cases net.node? id with
  | none => simp
  | some node => simp [and_comm, eq_comm]

lemma nodup_linkedInputs : net.linkedInputs.Nodup := by
  refine Nodup.filter _ (nodup_flatMap.2 ⟨fun id _ => ?_, ?_⟩)
  · exact nodup_range.map fun i j e => (Prod.mk.inj e).2
  · refine net.nodup_ids.imp fun {m n} hne b hm hn => hne ?_
    exact (mem_inputsAt.1 hm).1.symm.trans (mem_inputsAt.1 hn).1

/-- Every input that something feeds is the end of one link. -/
lemma Fitted.perm_linkedInputs {N : Node → Prop} (h : net.Fitted N rank) :
    net.linkedInputs.Perm (net.links.map fun l => (l.2.target, l.2.input.toNat)) := by
  have hnodup : (net.links.map fun l => (l.2.target, l.2.input.toNat)).Nodup :=
    h.tidy.numbers.of_map.map_on h.tidy.single
  refine (perm_ext_iff_of_nodup nodup_linkedInputs hnodup).2 fun b => ?_
  have hmem : b ∈ net.links.map (fun l => (l.2.target, l.2.input.toNat)) ↔ ∃ a, net.Feeds a b := by
    rw [mem_map]
    exact ⟨fun ⟨l, hl, e⟩ => ⟨_, l, hl, rfl, e⟩, fun ⟨a, l, hl, _, e⟩ => ⟨l, hl, e⟩⟩
  rw [hmem, linkedInputs, mem_filter, isInputLinked, Option.isSome_iff_exists]
  simp only [h.tidy.inputLink?_eq_some_iff]
  refine ⟨And.right, fun hb => ⟨?_, hb⟩⟩
  obtain ⟨a, hab⟩ := hb
  obtain ⟨_, _, target, _, _, _, ht, hi, _⟩ := fit_iff.1 (h.fit hab)
  exact mem_flatMap.2 ⟨b.1, mem_ids.2 ⟨target, ht⟩,
    mem_inputsAt.2 ⟨rfl, target, ht, (List.getElem?_eq_some_iff.1 hi).1⟩⟩

end Network

/-! ## Edits -/

namespace Graph

variable {g g' : Graph} {target : NodeId}

/-- An edit of a graph; nodes that it adds have no more sockets than links can number. -/
def Change.IsEdit : Change → Prop
  | .addNode node => node.Addressable
  | .finalize _ => False
  | _ => True

/-- Sockets that are found by name and may be linked. -/
lemma fit_of_require {source target : NodeId} {output input : String} {o i : Nat} {s t : SocketType}
    (ho : g.requireOutput source output = .ok (o, s)) (hi : g.requireInput target input = .ok (i, t))
    (hst : s.linksTo t = true) : g.net.Fit (source, o) (target, i) := by
  obtain ⟨m, hm, _, ht⟩ := requireInput_eq_ok hi
  obtain ⟨n, hn, _, hs⟩ := requireOutput_eq_ok ho
  obtain ⟨inp, hinp, rfl⟩ := Option.map_eq_some_iff.1 ht
  obtain ⟨out, hout, rfl⟩ := Option.map_eq_some_iff.1 hs
  exact fit_iff.2 ⟨n, out, m, inp, hn, hout, hm, hinp, hst⟩

/-- A condition on networks that edits keep, if the nodes that they add meet another one. -/
structure Lasting (N : Node → Prop) (P : Network → Prop) : Prop where
  empty : P .empty
  spaced {net} : P net → net.Spaced
  ofKind (k : NodeKind) : N (.ofKind k)
  addNode {net node} : P net → N node → P (net.addNode node).2
  setValue {net id i value} : P net →
    (∀ input, net.input? id i = some input → value.fits input.ty = true) →
      P (net.setValue id i value)
  unlink {net} : P net → ∀ id i, P (net.unlink id i)
  link {net a target i} : P net → net.Fit a (target, i) → net.hasPath target a.1 = false →
    P (net.link a target i)

/-- A condition holds of the network and of the one from which preparation starts, and the output
node is there in both. -/
structure Throughout (P : Network → Prop) (g : Graph) : Prop where
  net : P g.net
  output : g.net.kind? g.output = some .output
  base : P g.base
  base_output : g.base.kind? g.output = some .output

/-- A change of the network that forgets earlier preparations. -/
lemma Throughout.edit {P : Network → Prop} {net : Network} (hn : P net)
    (ho : net.kind? g.output = some .output) : (g.edit net).Throughout P := ⟨hn, ho, hn, ho⟩

/-- Another network changes that from which preparation starts only if it is the one. -/
lemma base_with_net (g : Graph) (net : Network) :
    { g with net }.base = g.base ∨ { g with net }.base = net := by
  unfold base
  cases g.finalized with
  | none => exact .inr rfl
  | some options =>
    cases g.unfinalized with
    | none => exact .inr rfl
    | some before => exact .inl rfl

section

variable {N : Node → Prop} {P : Network → Prop} (L : Lasting N P)
include L

lemma Lasting.new : new.Throughout P := .edit (g := .new) (L.addNode L.empty (L.ofKind .output)) rfl

lemma Throughout.change (h : g.Throughout P) {c : Change}
    (hadd : ∀ node, c = .addNode node → N node)
    (hfin : ∀ options, c = .finalize options → P (g.base.finalize g.output options)) :
    (g.change c).Throughout P := by
  have hnew : ∀ node, N node → (g.addNode node).2.Throughout P := fun node hn =>
    .edit (L.addNode h.net hn) (kind?_of_form? ((L.spaced h.net).form?_addNode node) h.output)
  cases c with
  | add kind => exact hnew _ (L.ofKind kind)
  | addNode node => exact hnew node (hadd node rfl)
  | setInput id name value =>
    refine attempt h fun g' hg' => ?_
    obtain ⟨node, i, input, hn, _, hi, hfits, rfl⟩ := setInput_eq_ok hg'
    refine .edit (L.setValue h.net fun j hj => ?_) ((kind?_setValue ..).trans h.output)
    rw [Network.input?, hn, Option.bind_some, hi] at hj
    cases hj
    exact hfits
  | connect source output target input =>
    refine attempt h fun g' hg' => ?_
    obtain ⟨o, s, i, t, ho, hi, hst, hp, rfl⟩ := connect_eq_ok hg'
    exact .edit (L.link h.net (fit_of_require ho hi hst) hp) ((kind?_link ..).trans h.output)
  | disconnect target input =>
    refine attempt_disconnect h fun i => ?_
    have hn := L.unlink h.net target i
    have ho := (kind?_unlink target g.output i).trans h.output
    refine ⟨hn, ho, ?_, ?_⟩ <;> obtain e | e := g.base_with_net (g.net.unlink target i) <;> rw [e]
    exacts [h.base, hn, h.base_output, ho]
  | finalize options =>
    have hf := hfin options rfl
    show (g.finalize options).Throughout P
    unfold finalize
    split
    · exact h
    · exact ⟨hf, ((L.spaced h.base).finalize g.output options).2.2 h.base_output, h.base,
        h.base_output⟩

end

/-! ## Assembled graphs -/

/-- A graph that was made by edits and preparations, with scripts among its nodes. -/
inductive Assembled : Graph → Prop
  | new : Assembled .new
  | addScript {g : Graph} {node : Node} {source : ScriptSource} (hg : Assembled g)
      (hk : node.kind = .script source) (hi : node.inputs.length ≤ 65536)
      (ho : node.outputs.length ≤ 65536) : Assembled (g.addNode node).2
  | edit {g g' : Graph} (hg : Assembled g) (h : Edit (fun _ => True) g g') : Assembled g'
  | finalize {g : Graph} (hg : Assembled g) (options : FinalizeOptions) :
      Assembled (g.finalize options)

lemma Assembled.attempt {x : Except GraphError Graph} (hg : g.Assembled)
    (hx : ∀ g', x = .ok g' → Edit (fun _ => True) g g') : (x.toOption.getD g).Assembled := by
  cases x with
  | error e => exact hg
  | ok g' => exact .edit hg (hx g' rfl)

lemma Assembled.connected (hg : g.Assembled) {source : NodeId} {output input : String} :
    (g.connected source output target input).Assembled :=
  hg.attempt fun _ h => .connect trivial h

/-- The networks are scripted. -/
abbrev Scripted (g : Graph) : Prop := g.Throughout Network.Scripted

lemma lasting_scripted : Lasting (fun node => node.form.Numbered) Network.Scripted where
  empty := Wired.empty
  spaced h := h.tidy.toSpaced
  ofKind := numbered_ofKind
  addNode h := Wired.addNode h
  setValue h _ := (h.setValue ..).scripted
  unlink h := Wired.unlink h
  link {_ _ target _} h hfit hp := by
    obtain ⟨ho, hi⟩ := hfit.fits fun hn => (h.nodes hn).addressable
    refine (h.link ho hi (.of_fit hfit ?_)).scripted
    -- Every node leads to itself, so a loop would have been refused.
    rintro rfl
    simp [hasPath] at hp

/-- Edits are changes. -/
lemma Edit.exists_change {allowed : String → Prop} (e : Edit allowed g g') :
    ∃ c, g' = g.change c ∧ ∀ node, c ≠ .addNode node := by
  cases e with
  | add kind => exact ⟨.add kind, rfl, by simp⟩
  | @setInput id name value _ _ h =>
    exact ⟨.setInput id name value, by rw [change, h]; rfl, by simp⟩
  | @connect source output target input _ _ h =>
    exact ⟨.connect source output target input, by rw [change, h]; rfl, by simp⟩
  | @disconnect target input _ _ _ h =>
    exact ⟨.disconnect target input, by rw [change, h]; rfl, by simp⟩

lemma Scripted.change (h : g.Scripted) {c : Change}
    (hadd : ∀ node, c = .addNode node → node.form.Numbered) : (g.change c).Scripted :=
  Throughout.change lasting_scripted h hadd fun options _ => h.base.finalize h.base_output options

/-- Whatever edits, scripts and preparations make of a graph, it is scripted. -/
theorem Assembled.scripted (h : g.Assembled) : g.Scripted := by
  induction h with
  | new => exact lasting_scripted.new
  | @addScript _ node _ _ hk hi ho ih =>
    refine ih.change (c := .addNode node) ?_
    rintro _ ⟨⟩
    exact Node.Addressable.numbered ⟨hi, ho⟩ (by simp [hk, NodeKind.isScript])
  | edit _ e ih =>
    obtain ⟨c, rfl, hc⟩ := e.exists_change
    exact ih.change fun node e => absurd e (hc node)
  | finalize _ options ih => exact ih.change (c := .finalize options) fun _ e => by cases e

/-! ## Links that fit -/

/-- What edits protect. -/
abbrev Fitted (g : Graph) (N : Node → Prop) : Prop :=
  g.Throughout fun net => ∃ rank, net.Fitted N rank

lemma lasting_fitted {N : Node → Prop} [Addressing N] :
    Lasting N fun net => ∃ rank, net.Fitted N rank where
  empty := ⟨fun _ => 0, Wired.empty⟩
  spaced h := h.choose_spec.tidy.toSpaced
  ofKind := Addressing.ofKind
  addNode h hn := h.imp fun _ h => Wired.addNode h hn
  setValue h hv := h.imp fun _ h => h.setValue hv
  unlink h id i := h.imp fun _ h => Wired.unlink h id i
  link h hfit hp := h.elim fun _ h => h.link_of_hasPath hfit hp

lemma fitted_changes {N : Node → Prop} [Addressing N] {cs : List Change}
    (h : ∀ c ∈ cs, c.IsEdit) (hadd : ∀ node, .addNode node ∈ cs → N node) :
    (new.changes cs).Fitted N := by
  refine changes_induction lasting_fitted.new fun g c hc hg => hg.change lasting_fitted ?_ ?_
  · rintro node rfl
    exact hadd node hc
  · rintro options rfl
    exact (h _ hc).elim

lemma Fitted.wellFormed {N : Node → Prop} (h : g.Fitted N) : g.WellFormed := by
  obtain ⟨rank, hr⟩ := h.net
  have hfeeds : ∀ l ∈ g.net.links,
      g.net.Feeds (l.2.source, l.2.output.toNat) (l.2.target, l.2.input.toNat) :=
    fun l hl => ⟨l, hl, rfl, rfl⟩
  exact ⟨acyclic_of_rank fun l hl => hr.ranked (hfeeds l hl),
    fun l hl m hm ht hi => hr.tidy.single l hl m hm (by rw [ht, hi]),
    fun l hl => fit_iff.1 (hr.fit (hfeeds l hl)), kind?_eq_some_iff.1 h.output⟩

/-- Whatever a new graph is asked for, in whatever order and refused or not, as long as it is not
prepared: it stays well formed, and it has as many links as inputs that something feeds. -/
theorem changes_wellFormed {cs : List Change} (h : ∀ c ∈ cs, c.IsEdit) :
    (new.changes cs).WellFormed ∧
      (new.changes cs).net.linkCount = (new.changes cs).net.linkedInputs.length := by
  have hfitted : (new.changes cs).Fitted Node.Addressable := fitted_changes h fun _ hn => h _ hn
  obtain ⟨rank, hr⟩ := hfitted.net
  refine ⟨hfitted.wellFormed, ?_⟩
  rw [Network.linkCount, hr.perm_linkedInputs.length_eq, List.length_map]

/-- A script is fed by a math node and then by another one; two more links are refused, of the script
to itself and to a node that is not there. -/
def scripting : List Change :=
  [.addNode ⟨.script (.file "a.oso"), [.float "In" 0], [⟨"Out", .float⟩]⟩, .add (.math .add false),
    .add (.math .add false), .connect 2 "Value" 1 "In", .connect 3 "Value" 1 "In",
    .connect 1 "Out" 1 "In", .connect 1 "Out" 7 "Value1"]

/-- One of the four links is there in the end. -/
theorem scripting_wellFormed : (∀ c ∈ scripting, c.IsEdit) ∧ (new.changes scripting).WellFormed ∧
    (new.changes scripting).net.linkedInputs.length = 1 := by
  have h : ∀ c ∈ scripting, c.IsEdit := by
    simp only [scripting, List.forall_mem_cons, Change.IsEdit]
    exact ⟨⟨by decide, by decide⟩, trivial, trivial, trivial, trivial, trivial, trivial,
      List.forall_mem_nil _⟩
  obtain ⟨hwell, hcount⟩ := changes_wellFormed h
  have hone : (new.changes scripting).net.linkCount = 1 := by decide +kernel
  exact ⟨h, hwell, hcount ▸ hone⟩

end Graph

end Shading
