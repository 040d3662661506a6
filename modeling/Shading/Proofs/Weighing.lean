import Shading.Proofs.Folding

/-!
# What preparation adds to a network

After folding and pruning, preparation adds nodes: one that turns the displacement into a normal,
and those that carry the weights of closures.  None of this changes what was there, apart from the
normal of the output node and the weight inputs of closures.  `Weighed` states that frame; the
lemmas below give the two elementary changes, splitting a weight and adding one to a closure, in
terms of nodes and links, and show that the network stays valid.
-/

namespace Shading.Network

open Option

variable {s : NodeId × Nat} {k : NodeKind} {x n : NodeId} {new : Network}

variable {net net' : Network}

/-! ## Weights and what they feed -/

/-- A weight that can be linked: the output carries a number and depends on no closure. -/
def Carrier (net : Network) (w : Weight) : Prop :=
  ∀ s, w = some s → net.outputType? s = some .float ∧
    ∃ k, net.kind? s.1 = some k ∧ k.handlesClosures = false

lemma node?_feedWeight (id n : NodeId) (input : Nat) (w : Weight) (c : Float32) :
    (net.feedWeight id input w c).node? n =
      if n = id ∧ w = none then (net.node? n).map (·.setValue input (.float c))
      else net.node? n := by
  cases w with
  | none => simp [feedWeight, node?_setValue]
  | some s => simp [feedWeight]

/-- A weight joins an input that takes a number. -/
lemma Carrier.joins {w : Weight} (hw : net.Carrier w) (hs : w = some s)
    {b : NodeId × Nat} (hb : net.inputType? b = some .float) : net.Joins s b :=
  ⟨.float, .float, (hw s hs).1, hb, rfl⟩

lemma Carrier.congr {w : Weight} (hw : net.Carrier w)
    (hk : ∀ {n k}, net.kind? n = some k → net'.kind? n = some k) : net'.Carrier w := by
  intro s hs
  obtain ⟨ht, k, hks, hkc⟩ := hw s hs
  refine ⟨?_, k, hk hks, hkc⟩
  rw [outputType?, hk hks, ← ht, outputType?, hks]

section

variable (h : net.Valid) {input : Nat}
include h

lemma Valid.inputLink?_link {source : NodeId × Nat} {target : NodeId}
    (hj : net.Joins source (target, input)) (n : NodeId) (i : Nat) :
    (net.link source target input).inputLink? n i =
      if (n, i) = (target, input) then some source else net.inputLink? n i :=
  h.tidy.inputLink?_link hj.fits_output hj.fits_input n i

lemma Valid.inputLink?_feedWeight {id : NodeId} {w : Weight}
    (c : Float32) (hj : ∀ s, w = some s → net.Joins s (id, input)) (n : NodeId) (i : Nat) :
    (net.feedWeight id input w c).inputLink? n i =
      if (n, i) = (id, input) ∧ w.isSome then w else net.inputLink? n i := by
  cases w with
  | none => simp [feedWeight]
  | some s =>
    rw [feedWeight, h.inputLink?_link (hj s rfl)]
    simp

lemma Valid.feedWeight_closure {id : NodeId} {w : Weight}
    (c : Float32) (hin : net.inputType? (id, input) = some .float) (hw : net.Carrier w)
    (hk : net.kind? id = some k) (hkc : k.handlesClosures = true) :
    (net.feedWeight id input w c).Valid := by
  cases w with
  | none =>
    obtain ⟨rank, h⟩ := h
    refine ⟨rank, h.setValue fun t ht => ?_⟩
    rw [hin] at ht
    cases ht
    rfl
  | some s =>
    obtain ⟨_, l, hl, hlc⟩ := hw s rfl
    exact h.link_to_closures (hw.joins rfl hin) hl hlc hk hkc

/-! ## A new node -/

/-- Nothing is known of a number without node. -/
lemma Valid.inputLink?_of_node? (hx : net.node? x = none) (i : Nat) :
    net.inputLink? x i = none := by
  rw [h.tidy.inputLink?_eq_none_iff]
  intro a ha
  obtain ⟨k, hk⟩ := (h.joins ha).target
  rw [kind?, hx] at hk
  cases hk

lemma Valid.not_feeds_of_node? (hx : net.node? x = none) (o : Nat)
    (b : NodeId × Nat) : ¬ net.Feeds (x, o) b := by
  intro hb
  obtain ⟨k, hk⟩ := (h.joins hb).source
  rw [kind?, hx] at hk
  cases hk

lemma Valid.kind?_addNode (kind : NodeKind) (n : NodeId) : (net.addNode (.ofKind kind)).2.kind? n =
      if n = (net.addNode (.ofKind kind)).1 then some kind else net.kind? n := by
  rw [kind?, h.tidy.node?_addNode]
  split <;> rfl

lemma Valid.kind?_addNode_of_some (kind : NodeKind)
    (hk : net.kind? n = some k) : (net.addNode (.ofKind kind)).2.kind? n = some k := by
  obtain ⟨rank, hr⟩ := h
  rw [Valid.kind?_addNode ⟨rank, hr⟩, if_neg (hr.ne_addNode _ hk), hk]

end

/-! ## The frame -/

/-- Nothing of a network changed but the inputs that were touched; nodes may have been added. -/
structure Weighed (touched : NodeId × Nat → Prop) (net net' : Network) : Prop where
  node : ∀ {n node}, net.node? n = some node → ∃ node', net'.node? n = some node' ∧
    node'.kind = node.kind ∧ ∀ i, ¬ touched (n, i) → node'.inputs[i]? = node.inputs[i]?
  link : ∀ {n node}, net.node? n = some node → ∀ i, ¬ touched (n, i) →
    net'.inputLink? n i = net.inputLink? n i

namespace Weighed

variable {touched : NodeId × Nat → Prop}

lemma refl : Weighed touched net net := ⟨fun h => ⟨_, h, rfl, fun _ _ => rfl⟩, fun _ _ _ => rfl⟩

lemma trans {cur : Network} (h : Weighed touched net cur) (h' : Weighed touched cur net') :
    Weighed touched net net' := by
  constructor
  · intro n node hn
    obtain ⟨mid, hmid, hk, hi⟩ := h.node hn
    obtain ⟨node', hn', hk', hi'⟩ := h'.node hmid
    exact ⟨node', hn', hk'.trans hk, fun i ht => (hi' i ht).trans (hi i ht)⟩
  · intro n node hn i ht
    obtain ⟨mid, hmid, _⟩ := h.node hn
    rw [h'.link hmid i ht, h.link hn i ht]

lemma mono {touched' : NodeId × Nat → Prop} (hs : ∀ b, touched b → touched' b)
    (h : Weighed touched net net') : Weighed touched' net net' := by
  constructor
  · intro n node hn
    obtain ⟨node', hn', hk, hi⟩ := h.node hn
    exact ⟨node', hn', hk, fun i ht => hi i fun hc => ht (hs _ hc)⟩
  · exact fun hn i ht => h.link hn i fun hc => ht (hs _ hc)

lemma kind? (h : Weighed touched net net') (hk : net.kind? n = some k) : net'.kind? n = some k := by
  obtain ⟨node, hn, rfl⟩ := kind?_eq_some_iff.1 hk
  obtain ⟨node', hn', hk', _⟩ := h.node hn
  rw [kind?_of_node? hn', hk']

/-- What an untouched input holds. -/
lemma input? (h : Weighed touched net net') {node : Node}
    (hn : net.node? n = some node) {i : Nat} (ht : ¬ touched (n, i)) :
    net'.input? n i = net.input? n i := by
  obtain ⟨node', hn', _, hi⟩ := h.node hn
  rw [Network.input?, Network.input?, hn, hn', bind_some, bind_some, hi i ht]

/-- Adding a node and feeding it changes nothing else. -/
lemma of_new (hx : net.node? x = none) (hn : ∀ n, n ≠ x → net'.node? n = net.node? n)
    (hl : ∀ n i, n ≠ x → net'.inputLink? n i = net.inputLink? n i) :
    Weighed touched net net' := by
  constructor
  · intro n node h
    exact ⟨node, (hn n (ne_of_node? hx h)).trans h, rfl, fun _ _ => rfl⟩
  · exact fun h i _ => hl _ i (ne_of_node? hx h)

end Weighed

/-! ## Feeding a new node -/

/-- A node takes a weight in one of its inputs, and feeds nothing itself. -/
structure Fed (x : NodeId) (input : Nat) (w : Weight) (c : Float32) (net net' : Network) : Prop where
  valid : net'.Valid
  kind? : ∀ n, net'.kind? n = net.kind? n
  node? : ∀ n, n ≠ x → net'.node? n = net.node? n
  link : ∀ n i, (n, i) ≠ (x, input) → net'.inputLink? n i = net.inputLink? n i
  link_self : net'.inputLink? x input = w
  input? : ∀ i, i ≠ input → net'.input? x i = net.input? x i
  value : w = none → (net'.input? x input).map Input.value = some (.float c)
  isEnd : ∀ o b, ¬ net'.Feeds (x, o) b

lemma input?_setValue (id : NodeId) (input i : Nat) (v : SocketValue) :
    (net.setValue id input v).input? id i =
      if i = input then (net.input? id i).map fun inp => { inp with value := v }
      else net.input? id i := by
  rw [input?, node?_setValue, input?]
  cases net.node? id with
  | none => simp
  | some node =>
    simp only [Node.setValue]
    by_cases e : i = input
    · simp [e]
    · simp [e, Ne.symm e]

/-- Feeding an input of a node that itself feeds nothing and was not fed there. -/
lemma Valid.feedWeight_end (h : net.Valid) {input : Nat} {w : Weight} (c : Float32)
    (hin : net.inputType? (x, input) = some .float)
    (hw : ∀ s, w = some s → s.1 ≠ x ∧ ∃ t, net.outputType? s = some t ∧ t.linksTo .float = true)
    (hend : ∀ o b, ¬ net.Feeds (x, o) b) (hfree : net.inputLink? x input = none) :
    Fed x input w c net (net.feedWeight x input w c) := by
  cases w with
  | none =>
    obtain ⟨k, i, hk, hi, hty⟩ := inputType?_eq_some_iff.1 hin
    obtain ⟨node, hn, rfl⟩ := kind?_eq_some_iff.1 hk
    have hinp : ∃ inp, net.input? x input = some inp := by
      have := (h.standard hn).shape_getElem? input
      rw [hi] at this
      obtain ⟨inp, hinp, _⟩ := map_eq_some_iff.1 this
      exact ⟨inp, by rw [input?, hn, bind_some, hinp]⟩
    obtain ⟨inp, hinp⟩ := hinp
    constructor
    · obtain ⟨rank, h⟩ := h
      refine ⟨rank, h.setValue fun t ht => ?_⟩
      rw [hin] at ht
      cases ht
      rfl
    · exact fun n => kind?_setValue ..
    · intro n hne
      rw [feedWeight, node?_setValue, if_neg hne]
    · exact fun n i _ => rfl
    · exact hfree
    · intro i hi
      rw [feedWeight, input?_setValue, if_neg hi]
    · intro _
      rw [feedWeight, input?_setValue, if_pos rfl, hinp]
      rfl
    · exact hend
  | some s =>
    obtain ⟨hne, t, ht, hlt⟩ := hw s rfl
    have hj : net.Joins s (x, input) := ⟨t, .float, ht, hin, hlt⟩
    have hlink := h.inputLink?_link hj
    constructor
    · exact h.link_into_end hj hend hne
    · exact fun n => kind?_link ..
    · exact fun n _ => node?_link ..
    · intro n i hni
      rw [feedWeight, hlink, if_neg hni]
    · rw [feedWeight, hlink, if_pos rfl]
    · intro i _
      rw [feedWeight, input?, node?_link, input?]
    · exact fun e => by cases e
    · intro o b hb
      obtain ⟨e, _⟩ | ⟨hb, _⟩ := (h.tidy.feeds_link hj.fits_output hj.fits_input).1 hb
      · exact hne (congrArg Prod.fst e).symm
      · exact hend o b hb

lemma Valid.addNode_spec (h : net.Valid) (kind : NodeKind)
    (e : net.addNode (.ofKind kind) = (x, new)) :
    new.Valid ∧ net.node? x = none ∧ new.kind? x = some kind ∧
      (∀ n, n ≠ x → new.node? n = net.node? n) ∧
      (∀ n i, new.inputLink? n i = net.inputLink? n i) ∧
      (∀ i, new.input? x i = kind.inputs[i]?) ∧ (∀ i, new.inputLink? x i = none) ∧
      ∀ o b, ¬ new.Feeds (x, o) b := by
  obtain rfl : (net.addNode (.ofKind kind)).1 = x := congrArg Prod.fst e
  obtain rfl : (net.addNode (.ofKind kind)).2 = new := congrArg Prod.snd e
  have hx := h.tidy.node?_addNode_fst (.ofKind kind)
  refine ⟨?_, hx, ?_, fun n hn => ?_, fun n i => ?_, fun i => ?_, fun i => ?_, fun o b hb => ?_⟩
  · obtain ⟨rank, h⟩ := h
    exact ⟨rank, h.addNode kind⟩
  · rw [h.kind?_addNode, if_pos rfl]
  · rw [h.tidy.node?_addNode, if_neg hn]
  · rw [inputLink?_addNode]
  · rw [input?, h.tidy.node?_addNode, if_pos rfl]
    rfl
  · rw [inputLink?_addNode, h.inputLink?_of_node? hx]
  · exact h.not_feeds_of_node? hx o b ((feeds_addNode ..).1 hb)

/-- What there was before a new node is still there. -/
lemma outputType?_of_new (hx : net.node? x = none)
    (hn : ∀ n, n ≠ x → net'.node? n = net.node? n) {t : SocketType}
    (ht : net.outputType? s = some t) : s.1 ≠ x ∧ net'.outputType? s = some t := by
  obtain ⟨k, o, hk, ho, rfl⟩ := outputType?_eq_some_iff.1 ht
  have hne : s.1 ≠ x := by
    intro e
    rw [kind?, e, hx] at hk
    cases hk
  exact ⟨hne, outputType?_eq_some_iff.2 ⟨k, o, by rw [kind?_congr (hn _ hne), hk], ho, rfl⟩⟩

/-- What feeds an input can feed any other of its type. -/
lemma Valid.outputType?_of_inputLink? (h : net.Valid) {id : NodeId} {input : Nat}
    (hl : net.inputLink? id input = some s) {ty : SocketType}
    (hin : net.inputType? (id, input) = some ty) :
    ∃ t, net.outputType? s = some t ∧ t.linksTo ty = true := by
  obtain ⟨t, u, ht, hu, htu⟩ := h.joins (feeds_of_inputLink? hl)
  rw [hin] at hu
  cases hu
  exact ⟨t, ht, htu⟩

/-- The two inputs of a new node take what feeds an input of another, and a weight. -/
lemma Valid.feed_pair (h : net.Valid) {kind : NodeKind} (e : net.addNode (.ofKind kind) = (x, new))
    (hty : ∀ i < 2, (kind.inputs[i]?).map Input.ty = some .float) {id : NodeId} {input i j : Nat}
    (hin : net.inputType? (id, input) = some .float) {w : Weight} (hw : net.Carrier w) (hi : i < 2)
    (hj : j < 2) (hij : i ≠ j) (held c : Float32) :
    let fed := new.feedWeight x i (net.inputLink? id input) held
    Fed x i (net.inputLink? id input) held new fed ∧ Fed x j w c fed (fed.feedWeight x j w c) := by
  intro fed
  obtain ⟨hnv, hx, hkx, hnode, _, _, hlinkx, hend⟩ := h.addNode_spec _ e
  have hin' : ∀ i < 2, new.inputType? (x, i) = some .float := fun i hi => by
    rw [inputType?, hkx, bind_some, hty i hi]
  have hfed : Fed x i (net.inputLink? id input) held new fed := by
    refine hnv.feedWeight_end _ (hin' i hi) (fun s hs => ?_) hend (hlinkx i)
    obtain ⟨t, ht, htl⟩ := h.outputType?_of_inputLink? hs hin
    obtain ⟨hne, ht⟩ := outputType?_of_new hx hnode ht
    exact ⟨hne, t, ht, htl⟩
  refine ⟨hfed, hfed.valid.feedWeight_end c ?_ (fun s hs => ?_) hfed.isEnd ?_⟩
  · rw [inputType?, hfed.kind?, ← inputType?, hin' j hj]
  · obtain ⟨hne, ht⟩ := outputType?_of_new hx hnode (hw s hs).1
    exact ⟨hne, .float, by rw [outputType?, hfed.kind?, ← outputType?, ht], rfl⟩
  · rw [hfed.link x j (by simp [hij.symm]), hlinkx]

/-! ## Splitting a weight -/

/-- The node that splits a weight by the factor of a mix. -/
structure Splits (net : Network) (mix : NodeId) (w : Weight) (net' : Network) (x : NodeId) :
    Prop where
  valid : net'.Valid
  weighed : Weighed (fun _ => False) net net'
  isNew : net.node? x = none
  kind? : net'.kind? x = some .mixClosureWeight
  weight : net'.inputLink? x 0 = w
  one : w = none → (net'.input? x 0).map Input.value = some (.float 1)
  factor : net'.inputLink? x 1 = net.inputLink? mix 0
  constant : net.inputLink? mix 0 = none →
    (net'.input? x 1).map Input.value = (net.input? mix 0).map Input.value

/-- The constant factor of a mix is what its first input holds. -/
lemma Valid.value_factor (h : net.Valid) {id : NodeId} {node : Node}
    (hn : net.node? id = some node) (hk : node.kind = .mixClosure) :
    (net.input? id 0).map Input.value = some (.float (node.float "Fac")) := by
  have hst := h.standard hn
  have hshape := hst.inputs
  rw [hk] at hshape
  obtain ⟨i₀, rest, hinputs⟩ : ∃ i₀ rest, node.inputs = i₀ :: rest := by
    cases hi : node.inputs with
    | nil =>
      rw [hi] at hshape
      cases hshape
    | cons i₀ rest => exact ⟨i₀, rest, rfl⟩
  rw [hinputs] at hshape
  have h₀ : i₀.shape = ("Fac", .float, false) := (List.cons.inj hshape).1
  have hname : i₀.name = "Fac" := congrArg Prod.fst h₀
  have hty : i₀.ty = .float := congrArg (fun s => s.2.1) h₀
  have hfits := hst.fits i₀ (by rw [hinputs]; exact List.mem_cons_self)
  rw [hty] at hfits
  have hfloat : ∃ c, i₀.value = .float c := by
    cases hv : i₀.value <;> rw [hv] at hfits <;> first | exact ⟨_, rfl⟩ | cases hfits
  obtain ⟨c, hc⟩ := hfloat
  have hfac : node.float "Fac" = c := by
    simp [Node.float, Node.input?, hinputs, hname, hc, SocketValue.float?]
  rw [input?, hn, bind_some, hinputs, List.getElem?_cons_zero, map_some, hfac, hc]

lemma Valid.splitWeight_mix (h : net.Valid) {id : NodeId} {node : Node}
    (hn : net.node? id = some node) (hk : node.kind = .mixClosure) {w : Weight}
    (hw : net.Carrier w) :
    ∃ net' x, net.splitWeight id node w = (net', some (x, 0), some (x, 1)) ∧
      Splits net id w net' x := by
  have hfac : node.inputIndex? "Fac" = some 0 := by
    rw [(h.standard hn).inputIndex?, hk]
    rfl
  have hin : net.inputType? (id, 0) = some .float := by
    rw [inputType?, kind?_of_node? hn, hk]
    rfl
  unfold splitWeight
  rw [hfac]
  rcases hadd : net.addNode (.ofKind .mixClosureWeight) with ⟨x, new⟩
  obtain ⟨hnv, hx, hkx, hnode, hlink, hinput, hlinkx, hend⟩ := h.addNode_spec _ hadd
  obtain ⟨f₁, f₂⟩ := h.feed_pair hadd (by decide) hin hw (i := 1) (j := 0) (by omega) (by omega)
    (by omega) (node.float "Fac") 0
  set fed := new.feedWeight x 1 (net.inputLink? id 0) (node.float "Fac")
  have hconst : net.inputLink? id 0 = none → ∀ cur : Network, cur.input? x 1 = fed.input? x 1 →
      (cur.input? x 1).map Input.value = (net.input? id 0).map Input.value := by
    intro hl cur hcur
    rw [hcur, f₁.value hl, h.value_factor hn hk]
  cases w with
  | none =>
    refine ⟨_, x, rfl, f₁.valid, ?_, hx, ?_, ?_, ?_, f₁.link_self, fun hl => hconst hl _ rfl⟩
    · refine .of_new hx (fun n hne => (f₁.node? n hne).trans (hnode n hne)) fun n i hne => ?_
      rw [f₁.link n i (fun e => hne (congrArg Prod.fst e)), hlink]
    · rw [f₁.kind?, hkx]
    · rw [f₁.link x 0 (by simp), hlinkx]
    · intro _
      rw [f₁.input? 0 (by decide), hinput]
      rfl
  | some s =>
    refine ⟨_, x, rfl, f₂.valid, ?_, hx, ?_, f₂.link_self, ?_, ?_, fun hl => hconst hl _ ?_⟩
    · refine .of_new hx
        (fun n hne => (f₂.node? n hne).trans ((f₁.node? n hne).trans (hnode n hne)))
        fun n i hne => ?_
      have hni : ∀ j, (n, i) ≠ (x, j) := fun j e => hne (congrArg Prod.fst e)
      exact (f₂.link n i (hni 0)).trans ((f₁.link n i (hni 1)).trans (hlink n i))
    · exact (f₂.kind? x).trans ((f₁.kind? x).trans hkx)
    · exact fun e => by cases e
    · exact (f₂.link x 1 (by simp)).trans f₁.link_self
    · exact f₂.input? 1 (by decide)

/-! ## Adding a weight to a closure -/

/-- What adding a weight leaves in the weight input of a closure: the weight itself if there was
none, and otherwise a new node that adds it to what was there. -/
inductive Adds (net : Network) (id : NodeId) (input : Nat) (held : Float32) (w : Weight)
    (net' : Network) : Prop
  | first (hfree : net.inputLink? id input = none) (hzero : (held != 0) = false)
      (hlink : net'.inputLink? id input = w)
      (hvalue : w = none → (net'.input? id input).map Input.value = some (.float (held + 1)))
  | sum (x : NodeId) (hx : net.node? x = none) (hk : net'.kind? x = some (.math .add false))
      (hlink : net'.inputLink? id input = some (x, 0))
      (hold : net'.inputLink? x 0 = net.inputLink? id input) (hnew : net'.inputLink? x 1 = w)
      (hheld : net.inputLink? id input = none →
        (net'.input? x 0).map Input.value = some (.float held))
      (hone : w = none → (net'.input? x 1).map Input.value = some (.float 1))

section addWeight

variable {id : NodeId} {node : Node} {input : Nat} {w : Weight} {held : Float32}

lemma Valid.unlink (h : net.Valid) (id : NodeId) (input : Nat) : (net.unlink id input).Valid := by
  obtain ⟨rank, h⟩ := h
  exact ⟨rank, h.unlink id input⟩

variable (h : net.Valid) (hn : net.node? id = some node) (hkc : node.kind.handlesClosures = true)
  (hin : net.inputType? (id, input) = some .float) (hw : net.Carrier w)
include h hn hkc hin hw

/-- A closure that has no weight yet takes it directly. -/
lemma Valid.addWeight_first (hheld : (net.input? id input).map Input.value = some (.float held))
    (hfree : net.inputLink? id input = none) (hzero : (held != 0) = false) :
    (net.feedWeight id input w (held + 1)).Valid ∧
      Weighed (· = (id, input)) net (net.feedWeight id input w (held + 1)) ∧
      Adds net id input held w (net.feedWeight id input w (held + 1)) := by
  have hlink := h.inputLink?_feedWeight (held + 1) fun s (hs : w = some s) => hw.joins hs hin
  refine ⟨h.feedWeight_closure _ hin hw (kind?_of_node? hn) hkc, ⟨?_, ?_⟩, .first hfree hzero ?_ ?_⟩
  · intro n m hm
    rw [node?_feedWeight]
    split
    · rename_i e
      refine ⟨m.setValue input (.float (held + 1)), by rw [hm, map_some], rfl, ?_⟩
      intro i hi
      have hne : input ≠ i := fun e' => hi (by rw [e.1, e'])
      rw [Node.setValue]
      simp [hne]
    · exact ⟨m, hm, rfl, fun _ _ => rfl⟩
  · intro n m _ i hi
    rw [hlink, if_neg (fun hc => hi hc.1)]
  · rw [hlink]
    cases w with
    | none => simp [hfree]
    | some s => simp
  · rintro rfl
    obtain ⟨inp, hinp, _⟩ := map_eq_some_iff.1 hheld
    rw [feedWeight, input?_setValue, if_pos rfl, hinp]
    rfl

/-- A closure that has a weight takes the sum from a new node. -/
lemma Valid.addWeight_sum
    (hadd : net.addNode (.ofKind (.math .add false)) = (x, new)) {cut : Network}
    (hcut : cut = if (net.inputLink? id input).isSome then
      ((new.feedWeight x 0 (net.inputLink? id input) held).feedWeight x 1 w 1).unlink id input
      else (new.feedWeight x 0 (net.inputLink? id input) held).feedWeight x 1 w 1) :
    (cut.link (x, 0) id input).Valid ∧ Weighed (· = (id, input)) net (cut.link (x, 0) id input) ∧
      Adds net id input held w (cut.link (x, 0) id input) := by
  obtain ⟨hnv, hx, hkx, hnode, hlink, hinput, hlinkx, hend⟩ := h.addNode_spec _ hadd
  have hidx := ne_of_node? hx hn
  obtain ⟨f₀, f₁⟩ := h.feed_pair hadd (by decide) hin hw (i := 0) (j := 1) (by omega) (by omega)
    (by omega) held 1
  set mid := new.feedWeight x 0 (net.inputLink? id input) held
  set fed := mid.feedWeight x 1 w 1
  -- Taking the old link away changes only the input that is linked next.
  have hcutv : cut.Valid := by
    rw [hcut]
    split
    · exact f₁.valid.unlink id input
    · exact f₁.valid
  have hcutn : ∀ n, cut.node? n = fed.node? n := by
    intro n
    rw [hcut]
    split
    · exact node?_unlink ..
    · rfl
  have hcutl : ∀ n i, (n, i) ≠ (id, input) → cut.inputLink? n i = fed.inputLink? n i := by
    intro n i hne
    rw [hcut]
    split
    · rw [f₁.valid.tidy.inputLink?_unlink, if_neg hne]
    · rfl
  have hfednode : ∀ n, n ≠ x → fed.node? n = net.node? n := fun n hne =>
    (f₁.node? n hne).trans ((f₀.node? n hne).trans (hnode n hne))
  have hfedlink : ∀ n i, n ≠ x → fed.inputLink? n i = net.inputLink? n i := by
    intro n i hne
    have hni : ∀ j, (n, i) ≠ (x, j) := fun j e => hne (congrArg Prod.fst e)
    rw [f₁.link n i (hni 1), f₀.link n i (hni 0), hlink]
  have hcutk : ∀ n, cut.kind? n = fed.kind? n := fun n => kind?_congr (hcutn n)
  have hkindx : cut.kind? x = some (.math .add false) := by
    rw [hcutk, f₁.kind?, f₀.kind?, hkx]
  have hkindid : cut.kind? id = some node.kind := by
    rw [hcutk, kind?_congr (hfednode id hidx), kind?_of_node? hn]
  have hj : cut.Joins (x, 0) (id, input) := by
    refine ⟨.float, .float, ?_, ?_, rfl⟩
    · rw [outputType?, hkindx]
      rfl
    · rw [inputType?, hkindid, ← hin, inputType?, kind?_of_node? hn]
  have hlast := hcutv.inputLink?_link hj
  have hxne : ∀ i, (x, i) ≠ (id, input) := fun i e => hidx (congrArg Prod.fst e).symm
  have hinp : ∀ i, (cut.link (x, 0) id input).input? x i = fed.input? x i := fun i => by
    rw [input?, node?_link, hcutn, input?]
  refine ⟨hcutv.link_to_closures hj hkindx rfl hkindid hkc, ⟨?_, ?_⟩, .sum x hx ?_ ?_ ?_ ?_ ?_ ?_⟩
  · intro n m hm
    exact ⟨m, by rw [node?_link, hcutn, hfednode n (ne_of_node? hx hm), hm], rfl, fun _ _ => rfl⟩
  · intro n m hm i hi
    rw [hlast, if_neg hi, hcutl n i hi, hfedlink n i (ne_of_node? hx hm)]
  · rw [kind?_link, hkindx]
  · rw [hlast, if_pos rfl]
  · rw [hlast, if_neg (hxne 0), hcutl _ _ (hxne 0), f₁.link x 0 (by simp), f₀.link_self]
  · rw [hlast, if_neg (hxne 1), hcutl _ _ (hxne 1), f₁.link_self]
  · intro hfree
    rw [hinp, f₁.input? 0 (by decide), f₀.value hfree]
  · intro hnone
    rw [hinp, f₁.value hnone]

theorem Valid.addWeight_spec (hheld : (net.input? id input).map Input.value = some (.float held)) :
    (net.addWeight id node input w).Valid ∧
      Weighed (· = (id, input)) net (net.addWeight id node input w) ∧
      Adds net id input held w (net.addWeight id node input w) := by
  have hread : ((node.inputs[input]?).bind fun i => i.value.float?).getD 0 = held := by
    rw [input?, hn, bind_some] at hheld
    obtain ⟨inp, hinp, hv⟩ := map_eq_some_iff.1 hheld
    rw [hinp, bind_some, hv]
    rfl
  unfold addWeight
  dsimp only
  rw [hread]
  split
  · rcases hadd : net.addNode (.ofKind (.math .add false)) with ⟨x, new⟩
    exact h.addWeight_sum hn hkc hin hw hadd rfl
  · rename_i hcond
    rw [Bool.or_eq_true, not_or] at hcond
    have hfree : net.inputLink? id input = none := by
      simpa using hcond.1
    exact h.addWeight_first hn hkc hin hw hheld hfree (by simpa using hcond.2)

end addWeight

/-! ## The normal of the output node -/

/-- The number of the output node's normal. -/
def normalIndex : Nat := 3

/-- Deriving the normal adds one node and touches one input of the output node. -/
theorem Valid.bumpFromDisplacement_spec (h : net.Valid) {output : NodeId}
    (ho : net.kind? output = some .output) (useObjectSpace : Bool) :
    let net' := net.bumpFromDisplacement output useObjectSpace
    net'.Valid ∧ Weighed (· = (output, normalIndex)) net net' ∧
      ∀ {n k}, net'.kind? n = some k → net.kind? n = some k ∨
        k = .bumpFromDisplacement useObjectSpace := by
  intro net'
  have hsame : net.Valid ∧ Weighed (· = (output, normalIndex)) net net ∧
      ∀ {n k}, net.kind? n = some k → net.kind? n = some k ∨
        k = .bumpFromDisplacement useObjectSpace := ⟨h, .refl, fun hk => .inl hk⟩
  obtain ⟨node, hn, hk⟩ := kind?_eq_some_iff.1 ho
  have hdisp : (net.node? output).bind (·.inputIndex? "Displacement") = some 2 := by
    rw [hn, bind_some, (h.standard hn).inputIndex?, hk]
    rfl
  have hnorm : (net.node? output).bind (·.inputIndex? "Normal") = some normalIndex := by
    rw [hn, bind_some, (h.standard hn).inputIndex?, hk]
    rfl
  have hin : net.inputType? (output, 2) = some .vector := by
    rw [inputType?, ho]
    rfl
  simp only [net', bumpFromDisplacement, hdisp, hnorm]
  cases hl : net.inputLink? output 2 with
  | none => exact hsame
  | some source =>
    rcases hadd : net.addNode (.ofKind (.bumpFromDisplacement useObjectSpace)) with ⟨x, new⟩
    obtain ⟨hnv, hx, hkx, hnode, hlink, _, _, hend⟩ := h.addNode_spec _ hadd
    obtain ⟨t, ht, htl⟩ := h.outputType?_of_inputLink? hl hin
    obtain ⟨hne, ht⟩ := outputType?_of_new hx hnode ht
    have hox := ne_of_node? hx hn
    have hj : new.Joins source (x, 0) := by
      refine ⟨t, .vector, ht, ?_, htl⟩
      rw [inputType?, hkx]
      rfl
    have hmv := hnv.link_into_end hj hend hne
    have hko : (new.link source x 0).kind? output = some .output := by
      rw [kind?_link, kind?_congr (hnode output hox), ho]
    have hj' : (new.link source x 0).Joins (x, 0) (output, normalIndex) := by
      refine ⟨.normal, .normal, ?_, ?_, rfl⟩
      · rw [outputType?, kind?_link, hkx]
        rfl
      · rw [inputType?, hko]
        rfl
    have hlast := hmv.inputLink?_link hj'
    have hmid := hnv.inputLink?_link hj
    refine ⟨?_, ⟨?_, ?_⟩, ?_⟩
    · exact hmv.link_to_closures hj' ((kind?_link ..).trans hkx) rfl hko rfl
    · intro n m hm
      exact ⟨m, by rw [node?_link, node?_link, hnode n (ne_of_node? hx hm), hm], rfl,
        fun _ _ => rfl⟩
    · intro n m hm i hi
      rw [hlast, if_neg hi, hmid, if_neg (fun e => ne_of_node? hx hm (congrArg Prod.fst e)), hlink]
    · intro n k hkn
      rw [kind?_link, kind?_link] at hkn
      by_cases e : n = x
      · subst e
        rw [hkx] at hkn
        exact .inr (some.inj hkn).symm
      · rw [kind?_congr (hnode n e)] at hkn
        exact .inl hkn

end Shading.Network
