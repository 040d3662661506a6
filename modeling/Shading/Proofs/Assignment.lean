import Shading.Proofs.Slots

/-!
# Assigning slots to the sockets of a node

`Mid` is what holds between two steps of emitting a node, and this module has one lemma for each
elementary step: asking for an input, asking for an output, and appending a line.  The operands that
can be read and the outputs that are pending are lists, so the lemmas say how each step changes
them.  The kinds of node are put together from these steps elsewhere.
-/

namespace Shading

open List Network SectionContext SlotTable Written Option

variable {b : Effect} {slot : Nat} {words : List Instruction} {reads : List (Operand × SlotRange)}
  {writes : List (Written × SlotRange)} {code : Array Instruction} {socket : Input} {m : Emit PUnit}
  {stack : Stack}

/-! ## Sizes -/

lemma SocketType.stackSize?_of_linksTo {a b : SocketType} (h : a.linksTo b = true) :
    a.stackSize? = b.stackSize? := by
  simp only [linksTo, Bool.or_eq_true, beq_iff_eq] at h
  obtain rfl | h := h
  · rfl
  · split at h
    · rename_i m n hm hn
      simp only [Bool.and_eq_true, beq_iff_eq] at h
      rw [hm, hn, h.1]
    · cases h

namespace SectionContext

variable {ctx : SectionContext} {n : NodeId} {i : Nat} {source : NodeId × Nat}

lemma inputLink?_of_link? (h : ctx.link? n i = some source) :
    ctx.net.inputLink? n i = some source := by
  rw [link?] at h
  split at h
  · cases h
  · exact h

lemma inputSize_eq (hv : ctx.net.Valid) (b : NodeId × Nat) :
    ctx.inputSize b = ((ctx.net.inputType? b).bind SocketType.stackSize?).getD 0 := by
  obtain ⟨n, i⟩ := b
  rw [inputSize, input?]
  cases hn : ctx.net.node? n with
  | none => simp [inputType?, kind?, hn]
  | some node =>
    rw [hv.inputType?_eq hn, bind_some]
    cases node.inputs[i]? <;> rfl

lemma outputSize_eq (hv : ctx.net.Valid) (a : NodeId × Nat) :
    ctx.outputSize a = ((ctx.net.outputType? a).bind SocketType.stackSize?).getD 0 := by
  rw [outputSize, outputType?, kind?]
  cases hn : ctx.net.node? a.1 with
  | none => rfl
  | some node =>
    rw [map_some, bind_some, bind_some, (hv.standard hn).outputs]
    cases node.kind.outputs[a.2]? <;> rfl

/-- What feeds an input has the size of the input and belongs to another node. -/
lemma source_of_link? (hv : ctx.net.Valid) (h : ctx.link? n i = some source) :
    ctx.outputSize source = ctx.inputSize (n, i) ∧ source.1 ≠ n := by
  have hf := feeds_of_inputLink? (inputLink?_of_link? h)
  obtain ⟨s, t, hs, ht, hst⟩ := hv.joins hf
  constructor
  · rw [outputSize_eq hv, inputSize_eq hv, hs, ht, bind_some, bind_some,
      SocketType.stackSize?_of_linksTo hst]
  · obtain ⟨rank, hv⟩ := hv
    intro e
    have := hv.ranked hf
    simp only [e] at this
    omega

end SectionContext

/-! ## Between two steps -/

/-- Slots that hold something which the node does not write. -/
def Protected (j : Job) (T : List (Written × SlotRange)) (s : SectionState) (r : SlotRange) :
    Prop :=
  (∃ e ∈ s.outputSlots, e.1.1 ≠ j.id ∧ j.ctx.outputRange e = r) ∨
    (∃ e ∈ s.inputSlots, j.ctx.isLoaded e = true ∧ j.ctx.inputRange e = r) ∨ ∃ x ∈ T, x.2 = r

/-- An operand of the node that is in its slots. -/
structure Readable (j : Job) (G : Outline) (T : List (Written × SlotRange)) (s : SectionState)
    (x : Operand × SlotRange) : Prop where
  value : ∃ q w, Kept G.lines w x.2 q G.lines.length ∧ j.ctx.Provides j.id x.1 w ∧
    (j.useful j.id → G.Exposed q)
  safe : Protected j T s x.2

/-- One more effect, if it is one. -/
def Effect.add : Effect → List Effect → List Effect
  | .plain, c => c
  | e, c => c ++ [e]

/-- The section has grown by lines of the node, which has no jumps; `c` are their effects. -/
def Grown (j : Job) (c : List Effect) (G : Outline) : Prop :=
  ∃ new : List Line, G = j.base.grow new ∧ (∀ l ∈ new, l.node = j.id ∧ l.effect ≠ .jump) ∧
    (new.filter (·.effect ≠ .plain)).map Line.effect = c

/-- The outputs that are wanted have slots, and so have the outputs of the node that were asked for
and feed something. -/
structure Holds (j : Job) (A : List Nat) (outputs : SlotTable) : Prop where
  wanted : ∀ a ∈ j.wanted, ∃ slot, (a, slot) ∈ outputs
  asked : ∀ o ∈ A, j.ctx.graph.net.isOutputLinked j.id o = true → ∃ slot, ((j.id, o), slot) ∈ outputs

/-- What holds between two steps of emitting a node: `R` are the operands that can be read, `W` the
pending outputs. -/
structure Mid (j : Job) (weight : Nat) (T : List (Written × SlotRange)) (A : List Nat)
    (R : List (Operand × SlotRange)) (W : List (Nat × SlotRange)) (c : List Effect)
    (s : SectionState) : Prop where
  lines : ∃ G, Grown j c G ∧ G.Text j.ctx j.useful s.code ∧ Slots j G T A W s ∧
    ∀ x ∈ R, Readable j G T s x
  weight : s.mixWeight = weight
  done : s.done = j.done
  closed : s.closureDone = j.closed
  holds : Holds j A s.outputSlots

/-- What is known of the node before it is emitted: it is not done, what it reads is wanted, and if it
is of use, so is what it reads, and that does not stand behind a jump. -/
structure Job.Ready (j : Job) : Prop where
  valid : j.ctx.graph.net.Valid
  fresh : j.id ∉ j.done
  wants : ∀ {i : Nat} {source : NodeId × Nat}, j.ctx.link? j.id i = some source →
    j.ctx.inputSize (j.id, i) ≠ 0 → source ∈ j.wanted
  sees : j.useful j.id → ∀ {i : Nat} {source : NodeId × Nat}, j.ctx.link? j.id i = some source →
    j.ctx.inputSize (j.id, i) ≠ 0 → source.1 ∉ j.base.hidden ∧ j.useful source.1

section

variable {j : Job} {weight : Nat} {T T' : List (Written × SlotRange)} {A : List Nat}
  {R R' : List (Operand × SlotRange)} {W : List (Nat × SlotRange)} {c : List Effect}
  {s s' : SectionState} {G : Outline} {line : Line} {x : Operand × SlotRange} {r : SlotRange}
  {source : NodeId × Nat} {n : NodeId} {ctx : SectionContext}

lemma Holds.insert {t : SlotTable} (h : Holds j A t) (o : Nat) :
    Holds j (o :: A) (t.insert (j.id, o) slot) where
  wanted a ha := exists_mem_insert (h.wanted a ha)
  asked o' ho hl := by
    obtain rfl | ho := mem_cons.1 ho
    · exact ⟨slot, mem_insert.2 (.inl rfl)⟩
    · exact exists_mem_insert (h.asked o' ho hl)

lemma Protected.rests (h : Protected j T s r) : Rests j T W s r :=
  h.imp_left fun ⟨e, he, hne, hr⟩ => ⟨e, he, fun _ _ e' => hne (by rw [e']), hr⟩

lemma Protected.mem_owners (h : Protected j T s r) : r ∈ j.ctx.owners T s :=
  Slots.mem_owners (h.rests (W := []))

lemma Protected.mono (h : Protected j T s r) (ho : s.outputSlots ⊆ s'.outputSlots)
    (hi : ∀ e ∈ s.inputSlots, j.ctx.isLoaded e = true → e ∈ s'.inputSlots) (hT : T ⊆ T') :
    Protected j T' s' r := by
  obtain ⟨e, he, hne, hr⟩ | ⟨e, he, hl, hr⟩ | ⟨y, hy, hr⟩ := h
  · exact .inl ⟨e, ho he, hne, hr⟩
  · exact .inr (.inl ⟨e, hi e he hl, hl, hr⟩)
  · exact .inr (.inr ⟨y, hT hy, hr⟩)

lemma Readable.mono (h : Readable j G T s x) (ho : s.outputSlots ⊆ s'.outputSlots)
    (hi : ∀ e ∈ s.inputSlots, j.ctx.isLoaded e = true → e ∈ s'.inputSlots) (hT : T ⊆ T') :
    Readable j G T' s' x := ⟨h.value, h.safe.mono ho hi hT⟩

lemma Readable.push (h : Readable j G T s x) (ha : ∀ y ∈ line.writes, y.2.Apart x.2) :
    Readable j (G.grow [line]) T s x := by
  obtain ⟨⟨q, w, hk, hp, hx⟩, hs⟩ := h
  exact ⟨⟨q, w, hk.push ha, hp, hx⟩, hs⟩

lemma Grown.push (h : Grown j c G) (hn : line.node = j.id) (hb : line.effect = b)
    (hne : b ≠ .jump := by decide) : Grown j (b.add c) (G.grow [line]) := by
  obtain ⟨new, rfl, hnode, rfl⟩ := h
  refine ⟨new ++ [line], Outline.grow_grow .., fun l hl => ?_, ?_⟩
  · obtain hl | hl := mem_append.1 hl
    · exact hnode l hl
    · rw [mem_singleton.1 hl, hb]
      exact ⟨hn, hne⟩
  · rw [filter_append, map_append]
    cases b <;> simp [hb, Effect.add]

lemma Grown.hidden (h : Grown j c G) : G.hidden = j.base.hidden := by
  obtain ⟨new, rfl, _⟩ := h
  rfl

/-- Noting where a linked input is read does not touch constants, and the input can be read. -/
lemma Slots.readLinked (hs : Slots j G T A W s) (hv : j.ctx.net.Valid)
    {i size : Nat} (hl : j.ctx.link? j.id i = some source)
    (hsees : j.useful j.id → source.1 ∉ G.hidden ∧ j.useful source.1)
    (hmem : (source, slot) ∈ s.outputSlots) (hsize : j.ctx.inputSize (j.id, i) = size)
    (hpos : 0 < size) :
    slot < Stack.size ∧
      (∀ e, j.ctx.isLoaded e = true →
        (e ∈ s.inputSlots.insert (j.id, i) slot ↔ e ∈ s.inputSlots)) ∧
      Slots j G T A W { s with inputSlots := s.inputSlots.insert (j.id, i) slot } ∧
      Readable j G T { s with inputSlots := s.inputSlots.insert (j.id, i) slot }
        (.input i, (slot, size)) := by
  obtain ⟨hos, hne⟩ := source_of_link? hv hl
  obtain ⟨_, hin, _⟩ := hs.sizes _ hmem
  rw [hos, hsize] at hin
  have hnot : ∀ w ∈ W, source ≠ (j.id, w.1) := fun w _ e => hne (by rw [e])
  obtain ⟨q, t, horigin, hk, hexp⟩ := hs.outputs _ hmem hnot
  have hunloaded : ∀ e : (NodeId × Nat) × Nat, j.ctx.isLoaded e = true → e.1 ≠ (j.id, i) := by
    rintro ⟨⟨n, k⟩, _⟩ hload e
    cases e
    simp [isLoaded, hl] at hload
  have hmem' : ∀ e, j.ctx.isLoaded e = true →
      (e ∈ s.inputSlots.insert (j.id, i) slot ↔ e ∈ s.inputSlots) := by
    intro e hload
    rw [mem_insert]
    constructor
    · rintro (rfl | he)
      · exact absurd rfl (hunloaded _ hload)
      · exact he.1
    · exact fun he => .inr ⟨he, hunloaded e hload⟩
  have hfilter : (s.inputSlots.insert (j.id, i) slot).filter j.ctx.isLoaded =
      s.inputSlots.filter j.ctx.isLoaded := by
    have hf : j.ctx.isLoaded ((j.id, i), slot) ≠ true := by simp [isLoaded, hl]
    rw [SlotTable.insert, filter_cons_of_neg hf, erase, List.filter_filter]
    refine filter_congr fun e _ => ?_
    by_cases he : j.ctx.isLoaded e = true
    · simp [he, hunloaded e he]
    · simp [he]
  refine ⟨by omega, hmem', ?_, ⟨q, .output t, ?_, .linked hl horigin,
    fun hu => hexp (hsees hu).1 (hsees hu).2⟩, .inl ⟨_, hmem, hne, ?_⟩⟩
  · refine ⟨hs.outputs, hs.sizes, hs.unique, fun e he hload =>
      hs.constants e ((hmem' e hload).1 he) hload, hs.others, hs.pending, fun k hk => ?_, hs.written⟩
    rw [owners, hfilter]
    exact hs.counts k hk
  · rwa [outputRange, hos, hsize] at hk
  · rw [outputRange, hos, hsize]

namespace Mid

section

variable (h : Mid j weight T A R W c s)
include h

lemma congr (hcode : s'.code = s.code)
    (ho : s'.outputSlots = s.outputSlots) (hi : s'.inputSlots = s.inputSlots)
    (hc : ∀ k, s'.stack.count k = s.stack.count k) (hw : s'.mixWeight = s.mixWeight)
    (hd : s'.done = s.done) (hcd : s'.closureDone = s.closureDone) :
    Mid j weight T A R W c s' := by
  obtain ⟨⟨G, hG, ht, hs, hr⟩, hweight, hdone, hclosed, hholds⟩ := h
  refine ⟨⟨G, hG, hcode ▸ ht, hs.congr ho hi hc, fun x hx => ?_⟩, hw.trans hweight,
    hd.trans hdone, hcd.trans hclosed, ho ▸ hholds⟩
  exact (hr x hx).mono (ho ▸ fun _ h => h) (fun e he _ => hi ▸ he) fun _ h => h

lemma weaken (hR : R' ⊆ R) : Mid j weight T A R' W c s := by
  obtain ⟨G, hG, ht, hs, hr⟩ := h.lines
  exact ⟨⟨G, hG, ht, hs, fun x hx => hr x (hR hx)⟩, h.weight, h.done, h.closed, h.holds⟩

/-- One more line of the node, which writes all pending outputs. -/
lemma append (hj : j.Ready) (hown : ¬ j.ctx.PassesOn j.id)
    (hc : Compiles j.ctx ⟨j.id, words, reads, writes⟩)
    (hb : Line.effect ⟨j.id, words, reads, writes⟩ = b) (hne : b ≠ .jump) (hr : reads ⊆ R)
    (hw : writes = W.map fun w => (output (j.id, w.1), w.2)) (ids : AttributeIds)
    (hcode : code.toList = s.code.toList ++ words) :
    Mid j weight T A R [] (b.add c) { s with code, ids } := by
  obtain ⟨G, hG, ht, hs, hR⟩ := h.lines
  set line : Line := ⟨j.id, words, reads, writes⟩ with hline
  have hmem : ∀ {x}, x ∈ line.writes → ∃ w ∈ W, (output (j.id, w.1), w.2) = x := by
    intro x hx
    rw [hline, hw] at hx
    exact mem_map.1 hx
  have htext : (G.grow [line]).Text j.ctx j.useful code := by
    refine ht.push hcode hc (fun x hx => (hR x (hr hx)).value) fun t r htr l hl r' hr' => ?_
    obtain ⟨w, hwW, e⟩ := hmem htr
    cases e
    obtain hd | ⟨_, _, hne⟩ := hs.written l hl _ _ hr'
    · exact hj.fresh hd
    · exact hne w hwW rfl
  refine ⟨⟨G.grow [line], hG.push rfl hb hne, htext, (hs.pushOutputs hown ht hw).congr rfl rfl fun _ => rfl,
    fun x hx => ?_⟩, h.weight, h.done, h.closed, h.holds⟩
  refine ((hR x hx).push fun y hy => ?_).mono (fun _ h => h) (fun _ h _ => h) fun _ h => h
  obtain ⟨w, hwW, rfl⟩ := hmem hy
  exact hs.pending_apart hwW (hR x hx).safe.rests

/-- An input that is fed by an output with a slot can be read there. -/
lemma readLinked (hj : j.Ready) {i size : Nat} (hl : j.ctx.link? j.id i = some source)
    (hmem : (source, slot) ∈ s.outputSlots) (hsize : j.ctx.inputSize (j.id, i) = size)
    (hpos : 0 < size) :
    slot < Stack.size ∧ Mid j weight T A (reading i slot size ++ R) W c
      { s with inputSlots := s.inputSlots.insert (j.id, i) slot } := by
  obtain ⟨G, hG, ht, hs, hR⟩ := h.lines
  have hsees : j.useful j.id → source.1 ∉ G.hidden ∧ j.useful source.1 := by
    rw [hG.hidden]
    exact fun hu => hj.sees hu hl (by omega)
  obtain ⟨hlt, hmem', hslots, hread⟩ := hs.readLinked hj.valid hl hsees hmem hsize hpos
  refine ⟨hlt, ⟨G, hG, ht, hslots, fun x hx => ?_⟩, h.weight, h.done, h.closed, h.holds⟩
  obtain hx' | hx' := mem_append.1 hx
  · obtain ⟨_, rfl⟩ := mem_placed.1 hx'
    exact hread
  · exact (hR x hx').mono (fun _ he => he) (fun e he hload => (hmem' e hload).2 he) fun _ h => h

/-- An input whose constant has been loaded can be read there. -/
lemma readLoaded {i size : Nat}
    (hl : j.ctx.link? j.id i = none) (hmem : ((j.id, i), slot) ∈ s.inputSlots)
    (hsize : j.ctx.inputSize (j.id, i) = size) :
    slot < Stack.size ∧ Mid j weight T A (reading i slot size ++ R) W c s := by
  obtain ⟨G, hG, ht, hs, hR⟩ := h.lines
  have hload : j.ctx.isLoaded ((j.id, i), slot) = true := by simp [isLoaded, hl]
  obtain ⟨_, hin, hpos, q, hk, hx⟩ := hs.constants _ hmem hload
  rw [hsize] at hin hpos
  refine ⟨by omega, ⟨G, hG, ht, hs, fun x hx' => ?_⟩, h.weight, h.done, h.closed, h.holds⟩
  obtain hx' | hx' := mem_append.1 hx'
  · obtain ⟨_, rfl⟩ := mem_placed.1 hx'
    refine ⟨⟨q, .constant (j.id, i), ?_, .constant hl, fun _ => hx⟩, .inr (.inl ⟨_, hmem, hload, ?_⟩)⟩
    · rwa [inputRange, hsize] at hk
    · rw [inputRange, hsize]
  · exact hR x hx'

/-- Loading the constant of an input into slots that were taken for it. -/
lemma load {i size : Nat}
    (hin : j.ctx.net.input? j.id i = some socket) (hty : socket.ty.stackSize? = some size)
    (hpos : 0 < size) (hl : j.ctx.link? j.id i = none)
    (hf : Fresh j.ctx T s (slot, size)) (hnew : s.inputSlots.get? (j.id, i) = none)
    (ids : AttributeIds) (hcode : code.toList = s.code.toList ++ constantWords slot socket) :
    slot < Stack.size ∧ Mid j weight T A (reading i slot size ++ R) W c
      { s with code, ids, inputSlots := s.inputSlots.insert (j.id, i) slot } := by
  obtain ⟨G, hG, ht, hs, hR⟩ := h.lines
  have hsize : j.ctx.inputSize (j.id, i) = size := by
    rw [inputSize, hin, bind_some, hty]
    rfl
  have hlt := hf.lt hpos
  have hinv : slot ≠ Stack.invalid := hlt.ne
  have hplaced : placed (constant (j.id, i)) slot size =
      [(.constant (j.id, i), (slot, size))] := if_neg hinv
  set line : Line := ⟨j.id, constantWords slot socket, [],
    placed (.constant (j.id, i)) slot size⟩ with hline
  have hcomp : Compiles j.ctx line := .constant hin hl hty hpos hlt.le
  have hplain : line.effect = .plain := by
    rw [Line.effect, hline, constantWords]
    split
    · rfl
    · split <;> rfl
  have hslots : Slots j (G.grow [line]) T A W
      { s with code, ids, inputSlots := s.inputSlots.insert (j.id, i) slot } :=
    hs.load ht (hsize ▸ hf) (hsize ▸ hpos) hl (by rw [hsize, hline, hplaced]) rfl rfl rfl
      fun e he => ne_of_get?_eq_none hnew he
  have htext : (G.grow [line]).Text j.ctx j.useful code := by
    refine ht.push hcode hcomp (by simp [hline]) fun t r htr => ?_
    rw [hline, hplaced, mem_singleton] at htr
    cases htr
  have hgrown : Grown j c (G.grow [line]) := hG.push rfl hplain
  refine ⟨hlt, ⟨G.grow [line], hgrown, htext, hslots, fun x hx => ?_⟩, h.weight, h.done, h.closed,
    h.holds⟩
  obtain hx | hx := mem_append.1 hx
  · obtain ⟨_, rfl⟩ := mem_placed.1 hx
    have hload : j.ctx.isLoaded ((j.id, i), slot) = true := by
      simp [isLoaded, hl]
    have hmem : ((j.id, i), slot) ∈ s.inputSlots.insert (j.id, i) slot := mem_insert.2 (.inl rfl)
    obtain ⟨_, _, _, q, hk, hex⟩ := hslots.constants _ hmem hload
    rw [inputRange, hsize] at hk
    refine ⟨⟨q, _, hk, .constant hl, fun _ => hex⟩, .inr (.inl ⟨_, hmem, hload, ?_⟩)⟩
    rw [inputRange, hsize]
  · refine ((hR x hx).push fun y hy => ?_).mono (fun _ he => he) (fun e he _ =>
      mem_insert.2 (.inr ⟨he, ne_of_get?_eq_none hnew he⟩)) fun _ h => h
    rw [hline, hplaced, mem_singleton] at hy
    subst hy
    exact hf.apart (hR x hx).safe.mem_owners

/-- Writing a value outside the tables into slots that were taken for it. -/
lemma hold {w : Written} {y : Operand} {size : Nat}
    (hpos : 0 < size) (hf : Fresh j.ctx T s (slot, size)) (hno : ∀ t, w ≠ .output t)
    (hprov : j.ctx.Provides j.id y w) (hc : Compiles j.ctx ⟨j.id, words, [], placed w slot size⟩)
    (hplain : Line.effect ⟨j.id, words, [], placed w slot size⟩ = .plain)
    (ids : AttributeIds) (hcode : code.toList = s.code.toList ++ words) :
    Mid j weight ((w, (slot, size)) :: T) A (placed y slot size ++ R) W c { s with code, ids } := by
  obtain ⟨G, hG, ht, hs, hR⟩ := h.lines
  have hlt := hf.lt hpos
  have hplaced : placed w slot size = [(w, (slot, size))] := if_neg hlt.ne
  set line : Line := ⟨j.id, words, [], placed w slot size⟩ with hline
  have hslots : Slots j (G.grow [line]) ((w, (slot, size)) :: T) A W { s with code, ids } :=
    (hs.hold ht hf hno (by rw [hline, hplaced])).congr rfl rfl fun _ => rfl
  have htext : (G.grow [line]).Text j.ctx j.useful code := by
    refine ht.push hcode hc (by simp [hline]) fun t r htr => ?_
    rw [hline, hplaced, mem_singleton] at htr
    exact absurd (Prod.mk.inj htr).1.symm (hno t)
  have hgrown : Grown j c (G.grow [line]) := hG.push rfl hplain
  refine ⟨⟨G.grow [line], hgrown, htext, hslots, fun x hx => ?_⟩, h.weight, h.done, h.closed, h.holds⟩
  obtain hx | hx := mem_append.1 hx
  · obtain ⟨_, rfl⟩ := mem_placed.1 hx
    obtain ⟨q, hk, hex⟩ := hslots.others _ mem_cons_self
    exact ⟨⟨q, w, hk, hprov, fun _ => hex⟩, .inr (.inr ⟨_, mem_cons_self, rfl⟩)⟩
  · refine ((hR x hx).push fun y hy => ?_).mono (fun _ he => he) (fun e he _ => he)
      (subset_cons_self _ _)
    rw [hline, hplaced, mem_singleton] at hy
    subst hy
    exact hf.apart (hR x hx).safe.mem_owners

omit h in
/-- Giving back the slots of such a value, when nothing is to be read any more. -/
lemma drop {w : Written} {f : SlotRange} (h : Mid j weight ((w, f) :: T) A R [] c s)
    (hc : ∀ k < Stack.size, s'.stack.count k =
      if Stack.covers f.1 f.2 k then s.stack.count k - 1 else s.stack.count k)
    (hs : s' = { s with stack := s'.stack }) : Mid j weight T A [] [] c s' := by
  obtain ⟨G, hG, ht, hslots, _⟩ := h.lines
  rw [hs]
  exact ⟨⟨G, hG, ht, hslots.drop rfl rfl hc, by simp⟩, h.weight, h.done, h.closed, h.holds⟩

lemma unassigned (hj : j.Ready) {o : Nat} (hA : o ∉ A) : ∀ e ∈ s.outputSlots, e.1 ≠ (j.id, o) := by
  intro e he hkey
  obtain ⟨_, _, _, hslots, _⟩ := h.lines
  obtain ⟨_, _, hd | ⟨_, hmem⟩⟩ := hslots.sizes e he
  · rw [hkey] at hd
    exact hj.fresh hd
  · rw [hkey] at hmem
    exact hA hmem

end

/-- An output that shares the slots of what feeds its node. -/
lemma share (h : Mid j weight T A R [] c s) (hj : j.Ready) {o : Nat}
    (hmem : (source, slot) ∈ s.outputSlots) (hpass : j.ctx.PassesOn j.id)
    (hl : j.ctx.link? j.id 3 = some source) (hin : j.ctx.inputSize (j.id, 3) ≠ 0)
    (hsize : j.ctx.outputSize (j.id, o) = j.ctx.outputSize source) (hA : o ∉ A)
    (hc : ∀ k < Stack.size, stack.count k =
      if Stack.covers slot (j.ctx.outputSize source) k then s.stack.count k + 1
      else s.stack.count k) :
    Mid j weight T (o :: A) [] [] c
      { s with stack, outputSlots := s.outputSlots.insert (j.id, o) slot } := by
  have hnew := h.unassigned hj hA
  obtain ⟨G, hG, ht, hslots, _⟩ := h.lines
  refine ⟨⟨G, hG, ht, ?_, by simp⟩, h.weight, h.done, h.closed, h.holds.insert o⟩
  exact hslots.share hmem hpass hl hsize (fun hu => hG.hidden ▸ hj.sees hu hl hin) rfl rfl hnew hc

end Mid

/-! ## Steps -/

open Emit

/-- An input of a kind, by name, with its position and size. -/
def NodeKind.HasInput (k : NodeKind) (name : String) (i size : Nat) : Prop :=
  (Node.ofKind k).inputIndex? name = some i ∧
    ((k.inputs[i]?).bind fun x => x.ty.stackSize?) = some size ∧ 0 < size

/-- An output of a kind, by name, with its position and size. -/
def NodeKind.HasOutput (k : NodeKind) (name : String) (o size : Nat) : Prop :=
  (Node.ofKind k).outputIndex? name = some o ∧
    ((k.outputs[o]?).bind fun x => x.ty.stackSize?) = some size ∧ 0 < size

lemma ensures_claim {size : Nat} (hpos : 0 < size) {P : SectionState → Prop}
    (hP : ∀ s stack, P s → P { s with stack }) :
    Ensures (fun s => P s ∧ Mid j weight T A R W c s) (claim size)
      fun slot s => Fresh j.ctx T s (slot, size) ∧ P s ∧ Mid j weight T A R W c s := by
  refine .get_bind ?_
  rintro s ⟨hPs, hs⟩
  cases hcl : s.stack.claim size s.code.size with
  | error e =>
    rintro t rfl
    exact ⟨_, _, congrArg _ (Stack.overflow_of_claim hcl)⟩
  | ok p =>
    obtain ⟨slot, stack⟩ := p
    obtain ⟨hin, hfree, hcount⟩ := Stack.claim_spec hcl hpos
    obtain ⟨G, hG, htext, hslots, hR⟩ := hs.lines
    have hclaim : Slots j G T A W { s with stack } ∧ Fresh j.ctx T { s with stack } (slot, size) :=
      hslots.claim hin hfree hcount rfl rfl
    refine .of_eq ?_
    rintro t rfl
    exact ⟨slot, { t with stack }, rfl, hclaim.2, hP _ _ hPs, ⟨G, hG, htext, hclaim.1, fun x hx =>
      (hR x hx).mono (fun _ h => h) (fun _ h _ => h) fun _ h => h⟩, hs.weight, hs.done, hs.closed,
      hs.holds⟩

lemma appends_loadConstant : Appends (loadConstant slot socket.value socket.ty)
      (· = constantWords slot socket) := by
  unfold loadConstant constantWords
  split
  · exact .push _
  · split
    · exact (Appends.push _).bind (.push _)
    · exact .push _

lemma ensures_read (hs : Slots j G T A W s) {r : SlotRange} (hr : r ∈ j.ctx.owners T s) :
    Ensures (· = s) (read r.1 r.2) fun _ s' => ∃ stack : Stack,
      (∀ k, stack.count k = s.stack.count k) ∧ s' = { s with stack } := by
  refine .get_bind ?_
  rintro s rfl
  obtain ⟨stack, hread⟩ := hs.exists_read hr s.code.size
  rw [hread]
  refine .of_eq ?_
  rintro t rfl
  exact ⟨⟨⟩, { t with stack }, rfl, stack, fun _ => Stack.count_read hread, rfl⟩

lemma Mid.congr_stack (h : Mid j weight T A R W c s)
    (hc : ∀ k, stack.count k = s.stack.count k) : Mid j weight T A R W c { s with stack } :=
  h.congr rfl rfl rfl hc rfl rfl rfl

lemma mem_owners_of_outputSlots (ctx : SectionContext)
    (h : (source, slot) ∈ s.outputSlots) : (slot, ctx.outputSize source) ∈ ctx.owners T s := by
  rw [owners, append_assoc]
  exact mem_append_left _ (mem_map.2 ⟨_, h, rfl⟩)

/-- Asking for a linked input: the slot of what feeds it is noted, and the code stays. -/
lemma ensures_assignInputAt_linked (hv : j.ctx.net.Valid) (hs : Slots j G T A W s)
    {i : Nat} (hl : j.ctx.link? n i = some source)
    (hpos : j.ctx.inputSize (n, i) ≠ 0) (hheld : ∃ slot, (source, slot) ∈ s.outputSlots) :
    Ensures (· = s) (j.ctx.assignInputAt n i) fun slot s' => (source, slot) ∈ s.outputSlots ∧
      ∃ stack : Stack, (∀ k, stack.count k = s.stack.count k) ∧
        s' = { s with stack, inputSlots := s.inputSlots.insert (n, i) slot } := by
  have hsource := (source_of_link? hv hl).1
  unfold assignInputAt
  cases hin : j.ctx.net.input? n i with
  | none => simp [inputSize, hin] at hpos
  | some socket =>
    dsimp only
    cases hty : socket.ty.stackSize? with
    | none => simp [inputSize, hin, hty] at hpos
    | some size =>
      have hsize : j.ctx.inputSize (n, i) = size := by simp [inputSize, hin, hty]
      have hread : Ensures (· = s) (readLink n socket.name size source)
          fun slot s' => (source, slot) ∈ s.outputSlots ∧
            ∃ stack : Stack, (∀ k, stack.count k = s.stack.count k) ∧ s' = { s with stack } := by
        refine .get_bind fun t ht => ?_
        subst ht
        obtain ⟨slot, hget⟩ := exists_get? hheld
        have hmem := mem_of_get? hget
        have howned := mem_owners_of_outputSlots (T := T) j.ctx hmem
        rw [hsource, hsize] at howned
        rw [hget]
        exact (ensures_read hs howned).bind fun _ => .pure fun s' h => ⟨hmem, h⟩
      rw [slotSize, hty, pure_bind, if_neg (hsize ▸ hpos), hl]
      refine hread.bind fun slot => Triple.bind (.modify ?_) fun _ => .pure fun _ h => h
      rintro _ ⟨hmem, stack, hc, rfl⟩
      exact ⟨hmem, stack, hc, rfl⟩

/-- Asking for an input makes it an operand that can be read. -/
lemma ensures_assignInputAt (hj : j.Ready) {i size : Nat}
    (hsize : j.ctx.inputSize (j.id, i) = size) (hpos : 0 < size) :
    Ensures (Mid j weight T A R W c) (j.ctx.assignInputAt j.id i)
      fun slot s => slot < Stack.size ∧ Mid j weight T A (reading i slot size ++ R) W c s := by
  cases hl : j.ctx.link? j.id i with
  | some source =>
    refine .each fun s hs => ?_
    obtain ⟨G, hG, ht, hslots, hR⟩ := hs.lines
    refine (ensures_assignInputAt_linked hj.valid hslots hl (by omega)
      (hs.holds.wanted _ (hj.wants hl (by omega)))).post ?_
    rintro slot _ ⟨hmem, stack, hc, rfl⟩
    obtain ⟨hlt, hmid⟩ := hs.readLinked hj hl hmem hsize hpos
    exact ⟨hlt, hmid.congr_stack hc⟩
  | none =>
    unfold assignInputAt
    cases hin : j.ctx.net.input? j.id i with
    | none =>
      simp only [inputSize, hin, bind_none, getD_none] at hsize
      omega
    | some socket =>
      dsimp only
      have hty : socket.ty.stackSize? = some size := by
        rw [inputSize, hin, bind_some] at hsize
        cases hty : socket.ty.stackSize? with
        | none =>
          rw [hty, getD_none] at hsize
          omega
        | some n => rw [← hsize, hty, getD_some]
      rw [slotSize, hty, pure_bind, if_neg hpos.ne', hl]
      refine .get_bind fun s hs => ?_
      cases hget : s.inputSlots.get? (j.id, i) with
      | some slot =>
        refine .pure fun t ht => ?_
        subst ht
        exact hs.readLoaded hl (mem_of_get? hget) hsize
      | none =>
        refine .pre (by rintro _ rfl; exact ⟨rfl, hs⟩)
          ((ensures_claim (P := (·.inputSlots = s.inputSlots)) hpos fun _ _ h => h).bind
            fun slot => ?_)
        refine appends_loadConstant.ensures.bind fun _ => ?_
        refine Triple.bind ?_ fun _ => .pure fun _ h => h
        refine .modify ?_
        rintro _ ⟨t, _, code, ids, ⟨hf, hi, ht⟩, rfl, rfl, hcode⟩
        exact ht.load hin hty hpos hl hf (hi ▸ hget) ids hcode

lemma NodeKind.HasInput.inputSize (hv : ctx.net.Valid)
    {k : NodeKind} (hk : ctx.net.kind? n = some k) {name : String} {i size : Nat}
    (h : k.HasInput name i size) : ctx.inputSize (n, i) = size := by
  rw [inputSize_eq hv, inputType?, hk, bind_some, bind_map]
  exact congrArg (·.getD 0) h.2.1

lemma NodeKind.HasOutput.outputSize (hv : ctx.net.Valid)
    {k : NodeKind} (hk : ctx.net.kind? n = some k) {name : String} {o size : Nat}
    (h : k.HasOutput name o size) : ctx.outputSize (n, o) = size := by
  rw [outputSize_eq hv, outputType?, hk, bind_some, bind_map]
  exact congrArg (·.getD 0) h.2.1

variable {k : NodeKind} {name : String} {i o size : Nat}

lemma NodeKind.HasInput.requireInput {g : Graph} (hin : k.HasInput name i size)
    (hv : g.net.Valid) (hk : g.net.kind? n = some k) : ∃ t, g.requireInput n name = .ok (i, t) := by
  obtain ⟨node, hn, rfl⟩ := kind?_eq_some_iff.1 hk
  refine Graph.exists_requireInput hn ?_
  rw [(hv.standard hn).inputIndex?, hin.1]

lemma NodeKind.HasOutput.requireOutput {g : Graph} (hout : k.HasOutput name o size)
    (hv : g.net.Valid) (hk : g.net.kind? n = some k) :
    ∃ t, g.requireOutput n name = .ok (o, t) ∧ t.stackSize? = some size := by
  obtain ⟨node, hn, rfl⟩ := kind?_eq_some_iff.1 hk
  obtain ⟨t, ht⟩ := Graph.exists_requireOutput hn (((hv.standard hn).outputIndex? _).trans hout.1)
  refine ⟨t, ht, ?_⟩
  obtain ⟨_, hn', _, hty⟩ := Graph.requireOutput_eq_ok ht
  obtain rfl := some.inj (hn.symm.trans hn')
  obtain ⟨x, hx, hsize⟩ := bind_eq_some_iff.1 hout.2.1
  rw [(hv.standard hn).outputs, hx, map_some] at hty
  rw [← some.inj hty, hsize]

lemma isLinked_eq (hj : j.Ready) (hk : j.ctx.net.kind? j.id = some k)
    (hin : (Node.ofKind k).inputIndex? name = some i) :
    j.ctx.isLinked j.id name = (j.ctx.link? j.id i).isSome := by
  obtain ⟨node, hn, rfl⟩ := kind?_eq_some_iff.1 hk
  rw [isLinked, hn, bind_some, (hj.valid.standard hn).inputIndex?, hin, bind_some]

lemma ensures_assignInput (hj : j.Ready) (hk : j.ctx.net.kind? j.id = some k)
    (hin : k.HasInput name i size) :
    Ensures (Mid j weight T A R W c) (j.ctx.assignInput j.id name)
      fun slot s => slot < Stack.size ∧ Mid j weight T A (reading i slot size ++ R) W c s := by
  obtain ⟨t, ht⟩ := hin.requireInput hj.valid hk
  refine (ensures_ofGraph ht).bind_eq ?_
  exact ensures_assignInputAt hj (hin.inputSize hj.valid hk) hin.2.2

lemma reading_invalid (i size : Nat) : reading i Stack.invalid size = [] := if_pos rfl

lemma ensures_assignInputIfLinked (hj : j.Ready) (hk : j.ctx.net.kind? j.id = some k)
    (hin : k.HasInput name i size) :
    Ensures (Mid j weight T A R W c) (j.ctx.assignInputIfLinked j.id name)
      fun slot s => SlotIf (j.ctx.link? j.id i).isSome slot ∧
        Mid j weight T A (reading i slot size ++ R) W c s := by
  unfold assignInputIfLinked
  rw [isLinked_eq hj hk hin.1]
  refine .ite (fun hl => ?_) fun hl => ?_
  · exact (ensures_assignInput hj hk hin).post fun _ _ h => ⟨(if_pos hl).mpr h.1, h.2⟩
  · exact .pure fun s hs => ⟨(if_neg hl).mpr rfl, by rwa [reading_invalid, nil_append]⟩

/-- An output that is asked for the first time is pending. -/
lemma ensures_assignOutput (hj : j.Ready) (hk : j.ctx.net.kind? j.id = some k)
    (hout : k.HasOutput name o size) (hA : o ∉ A) :
    Ensures (Mid j weight T A R W c) (j.ctx.assignOutput j.id name)
      fun slot s => slot < Stack.size ∧
        Mid j weight T (o :: A) R (W ++ placed o slot size) c s := by
  obtain ⟨t, ht, hstack⟩ := hout.requireOutput hj.valid hk
  refine (ensures_ofGraph ht).bind_eq ?_
  have hsize := hout.outputSize hj.valid hk
  have hpos := hout.2.2
  refine .get_bind fun s hs => ?_
  have hnew := hs.unassigned hj hA
  cases hget : s.outputSlots.get? (j.id, o) with
  | some slot => exact absurd rfl (hnew _ (mem_of_get? hget))
  | none =>
    rw [slotSize, hstack, pure_bind]
    refine .pre (by rintro _ rfl; exact ⟨rfl, hs⟩)
      ((ensures_claim (P := (·.outputSlots = s.outputSlots)) hpos fun _ _ h => h).bind
        fun slot => ?_)
    refine Triple.bind ?_ fun _ => .pure fun _ h => h
    refine .modify ?_
    rintro t ⟨hf, ho, hs⟩
    obtain ⟨G, hG, ht, hslots, hR⟩ := hs.lines
    have hlt := hf.lt hpos
    have hplaced : placed o slot size = [(o, (slot, size))] := if_neg hlt.ne
    rw [← ho] at hnew
    subst hsize
    have hslots' : Slots j G T (o :: A) (W ++ [(o, (slot, j.ctx.outputSize (j.id, o)))])
        { t with outputSlots := t.outputSlots.insert (j.id, o) slot } :=
      hslots.assign hA hf hpos rfl rfl rfl hnew
    rw [hplaced]
    refine ⟨hlt, ⟨G, hG, ht, hslots', fun x hx => ?_⟩, hs.weight, hs.done, hs.closed,
      hs.holds.insert _⟩
    exact (hR x hx).mono (fun e he => mem_insert.2 (.inr ⟨he, hnew e he⟩))
      (fun _ h _ => h) fun _ h => h

lemma isOutputLinked_eq (hj : j.Ready) (hk : j.ctx.net.kind? j.id = some k)
    (hout : (Node.ofKind k).outputIndex? name = some o) :
    j.ctx.isOutputLinked j.id name = j.ctx.net.isOutputLinked j.id o := by
  obtain ⟨node, hn, rfl⟩ := kind?_eq_some_iff.1 hk
  rw [SectionContext.isOutputLinked, hn, bind_some, (hj.valid.standard hn).outputIndex?,
    hout, any_some]

lemma Mid.skip (h : Mid j weight T A R W c s)
    (ho : j.ctx.net.isOutputLinked j.id o = false) : Mid j weight T (o :: A) R W c s := by
  obtain ⟨G, hG, ht, hs, hR⟩ := h.lines
  refine ⟨⟨G, hG, ht, hs.widen (subset_cons_self _ _), hR⟩, h.weight, h.done, h.closed,
    h.holds.wanted, fun o' ho' hl => ?_⟩
  obtain rfl | ho' := mem_cons.1 ho'
  · rw [ho] at hl
    cases hl
  · exact h.holds.asked o' ho' hl

lemma ensures_assignOutputIfLinked (hj : j.Ready) (hk : j.ctx.net.kind? j.id = some k)
    (hout : k.HasOutput name o size) (hA : o ∉ A) :
    Ensures (Mid j weight T A R W c) (j.ctx.assignOutputIfLinked j.id name)
      fun slot s => slot ≤ Stack.size ∧
        Mid j weight T (o :: A) R (W ++ placed o slot size) c s := by
  unfold assignOutputIfLinked
  rw [isOutputLinked_eq hj hk hout.1]
  refine .ite (fun _ => ?_) fun ho => ?_
  · exact (ensures_assignOutput hj hk hout hA).post fun _ _ h => ⟨h.1.le, h.2⟩
  · refine .pure fun s hs => ⟨le_rfl, ?_⟩
    have hnone : placed o Stack.invalid size = [] := if_pos rfl
    rw [hnone, append_nil]
    exact hs.skip (by simpa using ho)

@[simp] lemma map_output_placed (n : NodeId) (o slot size : Nat) :
    (placed o slot size).map (fun w => (output (n, w.1), w.2)) = writing (n, o) slot size := by
  rw [writing, placed, placed]
  split <;> rfl

/-- Kinds other than bumps compute their outputs themselves. -/
lemma not_passesOn (hk : ctx.net.kind? n = some k)
    (h : ∀ invert space, k ≠ .bump invert space) : ¬ ctx.PassesOn n := by
  rintro ⟨node, invert, space, hn, hkind, _⟩
  rw [kind?_of_node? hn, hkind] at hk
  exact h invert space (some.inj hk).symm

lemma ensures_appends (hj : j.Ready) (hown : ¬ j.ctx.PassesOn j.id)
    {form : List Instruction → Prop} (hm : Appends m form)
    (hc : ∀ words, form words → Compiles j.ctx ⟨j.id, words, reads, writes⟩)
    (hb : ∀ words, form words → Line.effect ⟨j.id, words, reads, writes⟩ = b) (hr : reads ⊆ R)
    (hw : writes = W.map fun w => (output (j.id, w.1), w.2)) (hne : b ≠ .jump := by decide) :
    Ensures (Mid j weight T A R W c) m fun _ => Mid j weight T A R [] (b.add c) := by
  refine hm.ensures.post ?_
  rintro _ _ ⟨s, words, code, ids, hs, hform, rfl, hcode⟩
  exact hs.append hj hown (hc words hform) (hb words hform) hne hr hw ids hcode

lemma ensures_line (hj : j.Ready) (hown : ¬ j.ctx.PassesOn j.id) (hm : Appends m (· = words))
    (hc : Compiles j.ctx ⟨j.id, words, reads, writes⟩)
    (hb : Line.effect ⟨j.id, words, reads, writes⟩ = b) (hr : reads ⊆ R)
    (hw : writes = W.map fun w => (output (j.id, w.1), w.2)) (hne : b ≠ .jump := by decide) :
    Ensures (Mid j weight T A R W c) m fun _ => Mid j weight T A R [] (b.add c) :=
  ensures_appends hj hown hm (fun _ h => h ▸ hc) (fun _ h => h ▸ hb) hr hw hne

lemma ensures_closureWeight (hw : reading i weight 1 ⊆ R) :
    Ensures (Mid j weight T A R W c) closureWeight
      fun w s => w = weight ∧ Mid j weight T A R W c s := by
  refine .get_bind fun s hs => .ite (fun hne => ?_) fun _ => .pure fun t ht => ⟨hs.weight, ht ▸ hs⟩
  rw [hs.weight] at hne ⊢
  obtain ⟨G, hG, ht, hslots, hR⟩ := hs.lines
  have hmem : (Operand.input i, (weight, 1)) ∈ reading i weight 1 := mem_placed.2 ⟨hne, rfl⟩
  have howned := (hR _ (hw hmem)).safe.mem_owners
  refine (ensures_read hslots howned).bind fun _ => .pure ?_
  rintro _ ⟨stack, hc, rfl⟩
  exact ⟨rfl, hs.congr_stack hc⟩

end

end Shading
