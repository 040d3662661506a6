import Shading.Proofs.Conveyance
import Shading.Proofs.Preparation

/-!
# Networks with scripts

A script brings sockets of its own: any names and types, and any number of them.  Weights are handed
out by the names of inputs, so the weight input of a script may have any type, and preparation then
makes links that no edit would be allowed to make; it can even close a circle through a script.

What stays true is said by `Network.Scripted`.  All nodes but scripts have the sockets of their
kinds, and what is linked to them fits, unless it is a weight, which may be linked to an input of
one slot.  Weights are never handed to bumps, mixes and sums of closures and output nodes, and no
bump feeds itself.

A link names sockets by numbers of sixteen bits.  A script with more sockets than that can be linked
to a socket other than the one that was asked for, so scripts are kept below this bound.
-/

namespace Shading

open Network Node NodeKind Option

variable {k : NodeKind} {i input : Nat} {node n : Node} {target output : NodeId} {volume : Bool}

/-- The kinds that weights are never handed to: bumps, mixes and sums of closures, and outputs. -/
def NodeKind.isJunction (k : NodeKind) : Bool :=
  k.special == .bump || k.special == .combineClosure || k.special == .output

/-- The kinds whose nodes bring sockets of their own. -/
def NodeKind.isScript : NodeKind → Bool
  | .script _ => true
  | _ => false

lemma NodeKind.isScript_of_isJunction (h : k.isJunction = true) : k.isScript = false := by
  cases k with
  | script _ => cases h
  | _ => rfl

/-- A node whose sockets links can number. -/
structure Node.Addressable (n : Node) : Prop where
  inputs : n.inputs.length ≤ 65536
  outputs : n.outputs.length ≤ 65536

lemma Node.addressable_ofKind (k : NodeKind) : (ofKind k).Addressable where
  inputs := k.length_inputs_le.trans (by decide)
  outputs := k.length_outputs_le.trans (by decide)

/-- A node whose sockets links can number, and that has the sockets of its kind unless it is a
script. -/
structure Node.Form.Numbered (f : Form) : Prop where
  inputs_le : f.inputs.length ≤ 65536
  outputs_le : f.outputs.length ≤ 65536
  standard : f.kind.isScript = false → f = (ofKind f.kind).form

lemma Node.Form.Numbered.junction {f : Form} (h : f.Numbered)
    (hj : f.kind.isJunction = true) : f = (ofKind f.kind).form :=
  h.standard (isScript_of_isJunction hj)

lemma Node.Form.Numbered.addressable (h : n.form.Numbered) : n.Addressable :=
  ⟨(List.length_map (f := Input.shape)).symm.trans_le h.inputs_le, h.outputs_le⟩

lemma Node.Addressable.numbered (h : n.Addressable)
    (hk : n.kind.isScript = false → n.form = (ofKind n.kind).form) : n.form.Numbered :=
  ⟨(List.length_map ..).trans_le h.inputs, h.outputs, hk⟩

lemma Node.numbered_ofKind (k : NodeKind) : (ofKind k).form.Numbered :=
  (addressable_ofKind k).numbered fun _ => rfl

/-- A position that was found by name is numbered. -/
lemma Node.Form.Numbered.fits_inputIndex? (h : n.form.Numbered) {name : String}
    (hi : n.inputIndex? name = some i) : Fits i :=
  (List.findIdx?_eq_some_iff_getElem.1 hi).1.trans_le h.addressable.inputs

lemma NodeKind.weightIndex?_of_isJunction (h : k.isJunction = true) (volume : Bool) :
    (ofKind k).weightIndex? volume = none := by
  cases k with
  | output | mixClosure | addClosure => cases volume <;> rfl
  | bump _ _ => cases volume <;> rfl
  | _ => cases h

lemma NodeKind.ty_ne_closure_of_bump (h : k.special = .bump) {i : Input}
    (hi : i ∈ k.inputs) : i.ty ≠ .closure := by
  intro ht
  have hc := handlesClosures_of_mem_inputs hi ht
  cases k with
  | bump _ _ => cases hc
  | _ => cases h

/-- A node that weights are handed to is no junction. -/
lemma Node.Form.Numbered.not_isJunction (h : n.form.Numbered)
    (hi : n.weightIndex? volume = some i) : n.kind.isJunction = false := by
  by_contra hj
  rw [Bool.not_eq_false] at hj
  have hnone := weightIndex?_of_isJunction hj volume
  rw [weightIndex?, inputIndex?_eq_of_form (h.junction hj)] at hi
  exact absurd (hnone.symm.trans hi) (by simp)

namespace Network

variable {net net' net'' : Network} {a b : NodeId × Nat} {id n : NodeId} {f g : Node.Form}
  {t : SocketType}

def sourceType? (net : Network) (a : NodeId × Nat) : Option SocketType :=
  (net.form? a.1).bind fun f => (f.outputs[a.2]?).map Output.ty

def targetType? (net : Network) (b : NodeId × Nat) : Option SocketType :=
  (net.form? b.1).bind fun f => (f.inputs[b.2]?).map fun s => s.2.1

/-- Both sockets are there and their types may be linked. -/
def Fit (net : Network) (a b : NodeId × Nat) : Prop :=
  ∃ s t, net.sourceType? a = some s ∧ net.targetType? b = some t ∧ s.linksTo t = true

lemma Fit.congr (ha : net'.form? a.1 = net.form? a.1) (hb : net'.form? b.1 = net.form? b.1)
    (h : net.Fit a b) : net'.Fit a b := by
  simpa only [Fit, sourceType?, targetType?, ha, hb] using h

lemma Fit.ends (h : net.Fit a b) :
    (∃ f, net.form? a.1 = some f) ∧ ∃ f, net.form? b.1 = some f := by
  obtain ⟨s, t, hs, ht, _⟩ := h
  obtain ⟨f, hf, _⟩ := bind_eq_some_iff.1 hs
  obtain ⟨g, hg, _⟩ := bind_eq_some_iff.1 ht
  exact ⟨⟨f, hf⟩, g, hg⟩

/-- Links can number the sockets of nodes that they can address. -/
lemma Fit.fits (h : net.Fit a b)
    (hn : ∀ {id node}, net.node? id = some node → node.Addressable) : Fits a.2 ∧ Fits b.2 := by
  obtain ⟨s, t, hs, ht, _⟩ := h
  obtain ⟨f, hf, hs⟩ := bind_eq_some_iff.1 hs
  obtain ⟨g, hg, ht⟩ := bind_eq_some_iff.1 ht
  obtain ⟨n, hnode, rfl⟩ := exists_node?_of_form? hf
  obtain ⟨m, hnode', rfl⟩ := exists_node?_of_form? hg
  obtain ⟨o, ho, _⟩ := map_eq_some_iff.1 hs
  obtain ⟨i, hi, _⟩ := map_eq_some_iff.1 ht
  have hlt := (List.getElem?_eq_some_iff.1 hi).1
  rw [form, List.length_map] at hlt
  exact ⟨(List.getElem?_eq_some_iff.1 ho).1.trans_le (hn hnode).outputs,
    hlt.trans_le (hn hnode').inputs⟩

lemma Extends.sourceType? (h : net.Extends net') (ht : net.sourceType? a = some t) :
    net'.sourceType? a = some t := by
  obtain ⟨f, hf, ht⟩ := bind_eq_some_iff.1 ht
  rw [Network.sourceType?, h.form hf, bind_some, ht]

lemma Extends.targetType? (h : net.Extends net') (ht : net.targetType? b = some t) :
    net'.targetType? b = some t := by
  obtain ⟨f, hf, ht⟩ := bind_eq_some_iff.1 ht
  rw [Network.targetType?, h.form hf, bind_some, ht]

/-- The link fits, or it leads a weight to an input of one slot. -/
def Takes (net : Network) (a b : NodeId × Nat) : Prop :=
  net.Fit a b ∨ ∃ f t, net.form? b.1 = some f ∧ f.kind.isJunction = false ∧
    net.targetType? b = some t ∧ t.stackSize? = some 1

/-- A node that is no script takes the link, and a bump does not feed itself. -/
def Suits (net : Network) (a b : NodeId × Nat) : Prop :=
  (∃ f, net.form? a.1 = some f) ∧ ∃ f, net.form? b.1 = some f ∧
    (f.kind.isScript = false → net.Takes a b) ∧ (f.kind.special = .bump → a.1 ≠ b.1)

instance : Wiring Suits where
  ends h := ⟨h.1, h.2.imp fun _ h => h.1⟩
  congr ha hb h := by
    simpa only [Suits, Takes, Fit, sourceType?, targetType?, ha, hb] using h

lemma Suits.of_fit (h : net.Fit a b) (hne : a.1 ≠ b.1) : net.Suits a b := by
  obtain ⟨hs, g, hg⟩ := h.ends
  exact ⟨hs, g, hg, fun _ => .inl h, fun _ => hne⟩

/-- Links name sockets by short numbers. -/
lemma Feeds.fits (h : net.Feeds a b) : Fits a.2 ∧ Fits b.2 := by
  obtain ⟨l, _, rfl, rfl⟩ := h
  exact ⟨l.2.output.toNat_lt, l.2.input.toNat_lt⟩

/-! ## Scripted networks -/

/-- A network in which nodes may have sockets of their own. -/
abbrev Scripted (net : Network) : Prop := net.Wired (fun node => node.form.Numbered) Suits

namespace Scripted

variable (h : net.Scripted)
include h

lemma numbered (hf : net.form? id = some f) : f.Numbered := by
  obtain ⟨node, hn, rfl⟩ := exists_node?_of_form? hf
  exact h.nodes hn

section

variable (hab : net.Feeds a b) (hf : net.form? b.1 = some f)
include hab hf

lemma takes (hk : f.kind.isScript = false) : net.Takes a b := by
  obtain ⟨_, g, hg, htakes, _⟩ := h.feeds hab
  cases hf.symm.trans hg
  exact htakes hk

lemma apart (hk : f.kind.special = .bump) : a.1 ≠ b.1 := by
  obtain ⟨_, g, hg, _, hne⟩ := h.feeds hab
  cases hf.symm.trans hg
  exact hne hk

/-- What is linked to a junction fits. -/
lemma fit (hj : f.kind.isJunction = true) : net.Fit a b := by
  obtain hfit | ⟨g, t, hg, hloose, _⟩ := h.takes hab hf (isScript_of_isJunction hj)
  · exact hfit
  · rw [hf] at hg
    cases hg
    rw [hj] at hloose
    cases hloose

end

lemma source (hl : net.inputLink? id i = some a) :
    (∃ f, net.form? a.1 = some f) ∧ Fits a.2 :=
  ⟨(h.ends (feeds_of_inputLink? hl)).1, (feeds_of_inputLink? hl).fits.1⟩

/-- A junction has the sockets of its kind. -/
lemma form?_of_isJunction (hk : net.kind? id = some k)
    (hj : k.isJunction = true) : net.form? id = some (ofKind k).form := by
  rw [kind?_eq_form?] at hk
  obtain ⟨f, hf, rfl⟩ := map_eq_some_iff.1 hk
  rw [hf, ← (h.numbered hf).junction hj]

end Scripted

/-- A network that has come from another one and in which no node was lost or got other sockets. -/
structure Grown (net net' : Network) : Prop extends Extends net net' where
  scripted : net'.Scripted

lemma Scripted.refl (h : net.Scripted) : net.Grown net := ⟨h.tidy.refl, h⟩

lemma Grown.trans (h : net.Grown net') (h' : net'.Grown net'') : net.Grown net'' :=
  ⟨h.toExtends.trans h'.toExtends, h'.scripted⟩

lemma fits_zero : Fits 0 := by decide

/-! ## Elementary changes -/

namespace Scripted

variable (h : net.Scripted)
include h

lemma setValue (id : NodeId) (input : Nat) (value : SocketValue) :
    net.Grown (net.setValue id input value) :=
  ⟨h.tidy.toSpaced.setValue .., Wired.setValue h fun n hn => by
    rw [form_setValue]
    exact h.nodes hn⟩

lemma addNode (hk : k ≠ .output) : net.Grown (net.addNode (.ofKind k)).2 :=
  ⟨h.tidy.extends_addNode hk, Wired.addNode h (numbered_ofKind k)⟩

lemma link {source : NodeId × Nat} (ho : Fits source.2)
    (hi : Fits input) (hs : net.Suits source (target, input)) :
    net.Grown (net.link source target input) :=
  ⟨h.tidy.toSpaced.link .., Wired.link h ho hi hs⟩

end Scripted

/-- A weight may be linked to an input of a node: the node is no junction, and the input has one
slot unless it belongs to a script. -/
structure Loose (net : Network) (f : Form) (b : NodeId × Nat) : Prop where
  form : net.form? b.1 = some f
  loose : f.kind.isJunction = false
  fits : Fits b.2
  narrow : f.kind.isScript = false → ∃ t, net.targetType? b = some t ∧ t.stackSize? = some 1

lemma Loose.grown (h : net.Loose f b) (hg : net.Grown net') : net'.Loose f b := by
  refine ⟨hg.form h.form, h.loose, h.fits, fun hk => ?_⟩
  obtain ⟨t, ht, hsize⟩ := h.narrow hk
  exact ⟨t, hg.targetType? ht, hsize⟩

/-- A number of a kind that is no junction. -/
lemma loose_ofKind (hself : net.form? id = some (ofKind k).form)
    (hj : k.isJunction = false) (hi : Fits i) (ht : (k.inputs[i]?).map Input.ty = some .float) :
    net.Loose (ofKind k).form (id, i) := by
  refine ⟨hself, hj, hi, fun _ => ⟨.float, ?_, rfl⟩⟩
  rw [targetType?, hself, bind_some, form, List.getElem?_map, map_map]
  exact ht

lemma Loose.suits (hl : net.Loose g b) (hs : net.form? a.1 = some f) : net.Suits a b := by
  refine ⟨⟨f, hs⟩, g, hl.form, fun hk => ?_, fun hb => ?_⟩
  · obtain ⟨t, ht, hsize⟩ := hl.narrow hk
    exact .inr ⟨g, t, hl.form, hl.loose, ht, hsize⟩
  · have hj := hl.loose
    simp [isJunction, hb] at hj

/-! ## Folding -/

namespace Scripted

variable (h : net.Scripted)
include h

/-- The type of the first output of a mix of closures and that of the inputs it chooses from. -/
lemma mixClosure_types (hk : net.kind? id = some .mixClosure) (hi : i = 1 ∨ i = 2) :
    net.sourceType? (id, 0) = some .closure ∧ net.targetType? (id, i) = some .closure := by
  rw [sourceType?, targetType?, h.form?_of_isJunction hk rfl]
  obtain rfl | rfl := hi <;> exact ⟨rfl, rfl⟩

lemma foldNode (id : NodeId) : net.Grown (net.foldNode id).1 := by
  refine foldNode_induction h.refl (fun {_ b _ _ v} hcur _ _ _ => ?_)
    ⟨h.tidy.toSpaced.removeOutgoing id, Wired.removeOutgoing h id⟩
    fun {cur input source c} hcur hk hi hsource hfeed => ?_
  · have hset := hcur.trans (hcur.scripted.setValue b.1 b.2 v)
    exact hset.trans ⟨hset.spaced.unlink .., Wired.unlink hset.scripted ..⟩
  obtain ⟨hmix, htarget⟩ := h.mixClosure_types hk hi
  obtain ⟨⟨f, hf⟩, _⟩ := h.ends hsource
  obtain ⟨_, g, hg⟩ := h.ends hfeed
  obtain ⟨s, t, hs, ht, hst⟩ := h.fit hsource (h.form?_of_isJunction hk rfl) rfl
  rw [htarget] at ht
  cases ht
  -- What the mix feeds takes closures or weights, so it takes this one too, and no bump does.
  have hclosure : net.Fit (id, 0) c → net.targetType? c = some .closure := by
    rintro ⟨u, v, hu, hv, huv⟩
    rw [hmix] at hu
    cases hu
    rwa [SocketType.linksTo_closure.1 huv] at hv
  refine hcur.trans (hcur.scripted.link hsource.fits.1 hfeed.fits.2 (Wiring.congr
    ((hcur.form hf).trans hf.symm) ((hcur.form hg).trans hg.symm)
    ⟨⟨f, hf⟩, g, hg, fun hk => ?_, fun hb => ?_⟩))
  · exact (h.takes hfeed hg hk).imp_left fun hfit => ⟨s, .closure, hs, hclosure hfit, hst⟩
  · exfalso
    have hj : g.kind.isJunction = true := by simp [isJunction, hb]
    have hty := hclosure (h.fit hfeed hg hj)
    rw [targetType?, hg, bind_some, (h.numbered hg).junction hj] at hty
    obtain ⟨shape, hshape, hclosed⟩ := map_eq_some_iff.1 hty
    rw [form, List.getElem?_map] at hshape
    obtain ⟨i, hi, rfl⟩ := map_eq_some_iff.1 hshape
    exact ty_ne_closure_of_bump hb (List.mem_of_getElem? hi) hclosed

lemma foldRounds (fuel : Nat) : net.Grown (foldRounds fuel net) :=
  foldRounds_induction (fun _ id hcur => hcur.trans (hcur.scripted.foldNode id)) fuel h.refl

/-! ## Weights -/

lemma bumpFromDisplacement (ho : net.kind? output = some .output) (useObjectSpace : Bool) :
    net.Grown (net.bumpFromDisplacement output useObjectSpace) := by
  unfold Network.bumpFromDisplacement
  split
  · rename_i displacement normal hdisplacement hnormal
    split
    · rename_i source hl
      obtain ⟨⟨f, hf⟩, hfits⟩ := h.source hl
      have hindex : ∀ {name i}, (net.node? output).bind (·.inputIndex? name) = some i →
          (ofKind .output).inputIndex? name = some i := by
        intro name i hi
        obtain ⟨node, hn, hidx⟩ := bind_eq_some_iff.1 hi
        have hform := h.form?_of_isJunction ho rfl
        rw [form?_of_node? hn, some.injEq] at hform
        rwa [inputIndex?_eq_of_form hform] at hidx
      obtain rfl : displacement = 2 := (some.inj (hindex hdisplacement)).symm
      obtain rfl : normal = 3 := (some.inj (hindex hnormal)).symm
      obtain ⟨s, t, hs, ht, hst⟩ :=
        h.fit (feeds_of_inputLink? hl) (h.form?_of_isJunction ho rfl) rfl
      rw [targetType?, h.form?_of_isJunction ho rfl] at ht
      cases ht
      have hadd := h.addNode (k := .bumpFromDisplacement useObjectSpace) NodeKind.noConfusion
      have hself := h.tidy.form?_addNode_fst (.ofKind (.bumpFromDisplacement useObjectSpace))
      have hne := h.tidy.addNode_ne hf (.ofKind (.bumpFromDisplacement useObjectSpace))
      have hne' := h.tidy.addNode_ne (h.form?_of_isJunction ho rfl)
        (.ofKind (.bumpFromDisplacement useObjectSpace))
      set bump := (net.addNode (.ofKind (.bumpFromDisplacement useObjectSpace))).1
      set net₁ := (net.addNode (.ofKind (.bumpFromDisplacement useObjectSpace))).2
      have hlink : net₁.Grown (net₁.link source bump 0) := by
        refine hadd.scripted.link hfits fits_zero
          (.of_fit ⟨s, .vector, hadd.sourceType? hs, ?_, hst⟩ hne.symm)
        rw [targetType?, hself]
        rfl
      have hgrown := hadd.trans hlink
      have hlast : (net₁.link source bump 0).Grown
          ((net₁.link source bump 0).link (bump, 0) output 3) := by
        refine hgrown.scripted.link fits_zero (by decide)
          (.of_fit ⟨.normal, .normal, ?_, ?_, rfl⟩ hne')
        · rw [sourceType?, hlink.form hself]
          rfl
        · rw [targetType?, hgrown.scripted.form?_of_isJunction (hgrown.kind? ho) rfl]
          rfl
      exact hgrown.trans hlast
    · exact h.refl
  · exact h.refl

end Scripted

/-- A weight comes from a node that is there, if it comes from one. -/
def Carries (net : Network) (weight : Weight) : Prop :=
  ∀ source, weight = some source → (∃ f, net.form? source.1 = some f) ∧ Fits source.2

lemma Carries.grown {weight : Weight} (h : net.Carries weight) (hg : net.Grown net') :
    net'.Carries weight := by
  intro source hs
  obtain ⟨⟨f, hf⟩, hfits⟩ := h source hs
  exact ⟨⟨f, hg.form hf⟩, hfits⟩

/-- Weights may be linked to weight inputs. -/
lemma Scripted.loose_weightIndex? (h : net.Scripted) (hn : net.node? id = some node)
    (hi : node.weightIndex? volume = some i) :
    net.Loose node.form (id, i) := by
  have hnum := h.numbered (form?_of_node? hn)
  refine ⟨form?_of_node? hn, hnum.not_isJunction hi, hnum.fits_inputIndex? hi, fun hk => ?_⟩
  have hform : node.form = (ofKind node.kind).form := hnum.standard hk
  rw [weightIndex?, inputIndex?_eq_of_form hform] at hi
  have hinput : node.kind.inputs[i]? = _ := (weightIndex?_ofKind hi).2
  refine ⟨.float, ?_, rfl⟩
  rw [targetType?, form?_of_node? hn, bind_some, hform, form, List.getElem?_map, map_map]
  change (node.kind.inputs[i]?).map Input.ty = some .float
  rw [hinput]
  rfl

/-- Handing out weights adds nodes and links, but never to a junction. -/
lemma conveys_grown : Conveys Grown Carries fun net b => ∃ f, net.Loose f b where
  refl h := h.scripted.refl
  trans h h' := h.trans h'
  carries h hw := hw.grown h
  takes h hl := hl.imp fun _ hl => hl.grown h
  one a ha := by cases ha
  source h _ _ _ ha := h.scripted.source ha
  weightIndex? h hn hi := ⟨_, h.scripted.loose_weightIndex? hn hi⟩
  setValue h := h.scripted.setValue
  unlink h _ := ⟨h.spaced.unlink .., Wired.unlink h.scripted ..⟩
  link h hw hl := by
    obtain ⟨⟨f, hf⟩, hfits⟩ := hw _ rfl
    obtain ⟨g, hl⟩ := hl
    exact h.scripted.link hfits hl.fits (hl.suits hf)
  addNode {net k} h hk := by
    have hself := h.scripted.tidy.form?_addNode_fst (.ofKind k)
    have hfits : ∀ i < 2, Fits i := fun i hi => hi.trans (by decide)
    refine ⟨h.scripted.addNode ?_, fun i hi => ⟨⟨_, loose_ofKind hself ?_ (hfits i hi) ?_⟩,
      fun a ha => ?_⟩⟩
    · obtain rfl | rfl := hk <;> exact NodeKind.noConfusion
    · obtain rfl | rfl := hk <;> rfl
    · obtain rfl | rfl := hk <;> interval_cases i <;> rfl
    · cases ha
      exact ⟨⟨_, hself⟩, hfits i hi⟩

/-- Preparation keeps a network scripted. -/
theorem Scripted.finalize (h : net.Scripted) (ho : net.kind? output = some .output)
    (options : FinalizeOptions) : (net.finalize output options).Scripted := by
  have hfold : net.Grown net.foldConstants := h.foldRounds _
  have hprune : (net.foldConstants.removeUnreachable output).Scripted :=
    (Wired.removeUnreachable_spec hfold.scripted output).1
  have hout : (net.foldConstants.removeUnreachable output).kind? output = some .output := by
    rw [kind?_eq_form?, hfold.spaced.form?_removeUnreachable, ← kind?_eq_form?, hfold.kind? ho]
  exact (conveys_grown.finalize hprune.refl fun _ => hprune.bumpFromDisplacement hout _).scripted

end Network

end Shading
