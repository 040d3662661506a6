import Shading.Proofs.ClosurePath

/-!
# The weight of a closure is the sum over its paths

Preparation walks down from a terminal and changes the weight inputs of closures as it goes: a mix
gets a node that splits the weight, and a closure that already has a weight gets a node that adds.
`Value` says what such a network of splitting and adding nodes evaluates to, over exact rational
numbers and for any values of the outputs that feed factors.  It is a relation on sockets, shown to
be single-valued, and it does not mention paths.

`distribute_spec` is the invariant of the walk: below a node, it adds to the value in the weight
input of every closure the incoming weight times the sum over the paths from the node to the
closure.  Nothing is assumed of the network but that it is valid and that weight inputs without a
link hold zero or one, which is what they start with and what the walk leaves there.  The nodes that
the walk adds split and add weights, and nothing else stands upstream of them but what feeds the
factors of mixes (`WeighedBy`).
-/

namespace Shading

open Option

lemma NodeKind.handlesClosures_of_isClosure {k : NodeKind} (h : k.isClosure = true) :
    k.handlesClosures = true := by
  rw [NodeKind.handlesClosures, h]
  rfl

namespace Network

variable {net net' cur base mid : Network} {env : NodeId × Nat → ℚ} {volume : Bool} {input i : Nat}
  {v q : ℚ} {w : Weight} {id x : NodeId} {held : Float32} {s : NodeId × Nat} {k : NodeKind}
  {M : NodeId → Prop} {p : Port}

/-! ## Weight inputs -/

/-- An input is the one that takes the weight of a closure on surfaces or in volumes. -/
def IsWeight (net : Network) (volume : Bool) (b : NodeId × Nat) : Prop :=
  ∃ k, net.kind? b.1 = some k ∧ (Node.ofKind k).weightIndex? volume = some b.2

/-- An input takes the weight of a closure. -/
def AnyWeight (net : Network) (b : NodeId × Nat) : Prop := ∃ volume, net.IsWeight volume b

/-- Weight inputs belong to closures that combine no others. -/
lemma weightIndex?_ofKind (h : (Node.ofKind k).weightIndex? volume = some i) :
    k.isClosure = true ∧
      k.inputs[i]? = some (.weight (if volume then volumeWeight else surfaceWeight)) := by
  cases k <;> cases volume <;> cases h <;> exact ⟨rfl, rfl⟩

/-- Only inputs of closures are touched. -/
def OnlyClosures (net : Network) (touched : NodeId × Nat → Prop) : Prop :=
  ∀ ⦃n k⦄, net.kind? n = some k → k.isClosure = false → ∀ i, ¬ touched (n, i)

lemma not_anyWeight : net.OnlyClosures net.AnyWeight := by
  rintro n k hk hc i ⟨_, l, hl, hi⟩
  rw [hk] at hl
  cases hl
  rw [(weightIndex?_ofKind hi).1] at hc
  cases hc

lemma special_eq_combineClosure :
    k.special = .combineClosure ↔ k = .mixClosure ∨ k = .addClosure := by
  cases k <;> simp [NodeKind.special, NodeKind.isClosure]

lemma IsWeight.inputType? {b : NodeId × Nat} (h : net.IsWeight volume b) :
    net.inputType? b = some .float := by
  obtain ⟨k, hk, hi⟩ := h
  rw [Network.inputType?, hk, bind_some, (weightIndex?_ofKind hi).2]
  rfl

/-! ## Values of sockets -/

/-- A socket of a network. -/
inductive Port where
  | input (id : NodeId) (position : Nat)
  | output (source : NodeId × Nat)

/-- What a socket evaluates to, for given values of the outputs that feed factors. -/
inductive Value (net : Network) (env : NodeId × Nat → ℚ) : Port → ℚ → Prop
  | fed {id : NodeId} {i : Nat} {s : NodeId × Nat} {q : ℚ} (hl : net.inputLink? id i = some s)
      (hs : Value net env (.output s) q) : Value net env (.input id i) q
  | held {id : NodeId} {i : Nat} {c : Float32} (hl : net.inputLink? id i = none)
      (hv : (net.input? id i).map Input.value = some (.float c)) :
      Value net env (.input id i) (exactValue c)
  | split₁ {x : NodeId} {q : ℚ} (hk : net.kind? x = some .mixClosureWeight)
      (hw : Value net env (.input x 0) q) :
      Value net env (.output (x, 0)) (q * (1 - net.factor env x))
  | split₂ {x : NodeId} {q : ℚ} (hk : net.kind? x = some .mixClosureWeight)
      (hw : Value net env (.input x 0) q) : Value net env (.output (x, 1)) (q * net.factor env x)
  | sum {x : NodeId} {q r : ℚ} (hk : net.kind? x = some (.math .add false))
      (h₁ : Value net env (.input x 0) q) (h₂ : Value net env (.input x 1) r) :
      Value net env (.output (x, 0)) (q + r)

/-- A socket has at most one value. -/
lemma Value.unique {r : ℚ} (hq : Value net env p q) (hr : Value net env p r) :
    q = r := by
  induction hq generalizing r with
  | fed hl _ ih =>
    cases hr with
    | fed hl' hs' =>
      rw [hl] at hl'
      cases hl'
      exact ih hs'
    | held hl' _ =>
      rw [hl] at hl'
      cases hl'
  | held hl hv =>
    cases hr with
    | fed hl' _ =>
      rw [hl] at hl'
      cases hl'
    | held _ hv' =>
      rw [hv] at hv'
      cases hv'
      rfl
  | split₁ hk _ ih =>
    cases hr with
    | split₁ _ hw' => rw [ih hw']
    | sum hk' _ _ =>
      rw [hk] at hk'
      cases hk'
  | split₂ hk _ ih =>
    cases hr with
    | split₂ _ hw' => rw [ih hw']
  | sum hk _ _ ih₁ ih₂ =>
    cases hr with
    | split₁ hk' _ =>
      rw [hk] at hk'
      cases hk'
    | sum _ h₁' h₂' => rw [ih₁ h₁', ih₂ h₂']

/-! ## What the frame keeps -/

section Frame

variable {touched : NodeId × Nat → Prop} {n : NodeId} {node : Node} {M : NodeId → Prop}
  {s : NodeId × Nat}

section

variable (h : Weighed touched net net') (hn : net.node? n = some node) (ht : ∀ i, ¬ touched (n, i))
include h hn ht

/-- A node none of whose inputs is touched is found with the same inputs. -/
lemma Weighed.inputs_eq : ∃ node', net'.node? n = some node' ∧ node'.inputs = node.inputs := by
  obtain ⟨node', hn', _, hi⟩ := h.node hn
  exact ⟨node', hn', List.ext_getElem? fun i => hi i (ht i)⟩

lemma Weighed.inputLinkByName? (name : String) :
    net'.inputLinkByName? n name = net.inputLinkByName? n name := by
  obtain ⟨node', hn', hin⟩ := h.inputs_eq hn ht
  have hidx : node'.inputIndex? name = node.inputIndex? name := by
    rw [Node.inputIndex?, hin, Node.inputIndex?]
  simp only [Network.inputLinkByName?, hn, hn', bind_eq_bind, bind_some, hidx]
  cases node.inputIndex? name with
  | none => rfl
  | some i => exact h.link hn i (ht i)

lemma Weighed.factor : net'.factor env n = net.factor env n := by
  obtain ⟨node', hn', hin⟩ := h.inputs_eq hn ht
  have hfac : node'.float "Fac" = node.float "Fac" := by
    rw [Node.float, Node.input?, hin, Node.float, Node.input?]
  rw [Network.factor, Network.factor, h.inputLinkByName? hn ht, hn, hn', map_some, map_some, hfac]

end

/-- Values do not change while only inputs of closures are touched, those inputs apart. -/
lemma Value.weighed (h : Weighed touched net net') (hc : net.OnlyClosures touched)
    (hex : ∀ {n i s}, net.inputLink? n i = some s → ∃ k, net.kind? n = some k) {q : ℚ}
    (hv : Value net env p q) (hp : ∀ id i, p = .input id i → ¬ touched (id, i)) :
    Value net' env p q := by
  induction hv with
  | @fed id i s q hl _ ih =>
    obtain ⟨k, hk⟩ := hex hl
    obtain ⟨node, hn, _⟩ := kind?_eq_some_iff.1 hk
    exact .fed ((h.link hn i (hp id i rfl)).trans hl) (ih fun _ _ e => by cases e)
  | @held id i c hl hv =>
    obtain ⟨inp, hinp, _⟩ := map_eq_some_iff.1 hv
    obtain ⟨node, hn, _⟩ := bind_eq_some_iff.1 hinp
    exact .held ((h.link hn i (hp id i rfl)).trans hl) ((h.input? hn (hp id i rfl)).symm ▸ hv)
  | @split₁ x q hk _ ih =>
    obtain ⟨node, hn, _⟩ := kind?_eq_some_iff.1 hk
    rw [← h.factor hn (hc hk rfl)]
    exact .split₁ (h.kind? hk) (ih fun id i e => by cases e; exact hc hk rfl 0)
  | @split₂ x q hk _ ih =>
    obtain ⟨node, hn, _⟩ := kind?_eq_some_iff.1 hk
    rw [← h.factor hn (hc hk rfl)]
    exact .split₂ (h.kind? hk) (ih fun id i e => by cases e; exact hc hk rfl 0)
  | sum hk _ _ ih₁ ih₂ =>
    exact .sum (h.kind? hk) (ih₁ fun id i e => by cases e; exact hc hk rfl 0)
      (ih₂ fun id i e => by cases e; exact hc hk rfl 1)

/-- An output that carries a weight, made from the factors of some mixes. -/
inductive WeighedBy (net : Network) (M : NodeId → Prop) : NodeId × Nat → Prop
  | split {x : NodeId} {o : Nat} (hk : net.kind? x = some .mixClosureWeight)
      (hweight : ∀ s, net.inputLink? x 0 = some s → WeighedBy net M s)
      (hfactor : ∀ s, net.inputLink? x 1 = some s →
        ∃ m, M m ∧ net.kind? m = some .mixClosure ∧ net.inputLink? m 0 = some s) :
      WeighedBy net M (x, o)
  | sum {x : NodeId} {o : Nat} (hk : net.kind? x = some (.math .add false))
      (hterms : ∀ i s, net.inputLink? x i = some s → WeighedBy net M s) : WeighedBy net M (x, o)

/-- Weights do not change while only inputs of closures are touched. -/
lemma WeighedBy.weighed (h : Weighed touched net net')
    (hc : net.OnlyClosures touched) (hs : net.WeighedBy M s) :
    net'.WeighedBy M s := by
  have hlink : ∀ {x k}, net.kind? x = some k → k.isClosure = false → ∀ i,
      net'.inputLink? x i = net.inputLink? x i := by
    intro x k hk hkc i
    obtain ⟨node, hn, _⟩ := kind?_eq_some_iff.1 hk
    exact h.link hn i (hc hk hkc i)
  induction hs with
  | split hk _ hfactor ih =>
    refine .split (h.kind? hk) (fun s hs => ih s ?_) fun s hs => ?_
    · rwa [hlink hk rfl] at hs
    · rw [hlink hk rfl] at hs
      obtain ⟨m, hm, hkm, hl⟩ := hfactor s hs
      exact ⟨m, hm, h.kind? hkm, by rwa [hlink hkm rfl]⟩
  | sum hk _ ih =>
    refine .sum (h.kind? hk) fun i s hs => ih i s ?_
    rwa [hlink hk rfl] at hs

end Frame

/-! ## Paths stay -/

section Paths

variable {touched : NodeId × Nat → Prop} {id x : NodeId} {k : NodeKind} {p : List (NodeId × Side)}

/-- Touching inputs of closures changes no path. -/
lemma Weighed.closurePath_iff (hv : net.Valid) (h : Weighed touched net net')
    (hc : net.OnlyClosures touched) (hk : net.kind? id = some k) :
    net'.ClosurePath id p x ↔ net.ClosurePath id p x := by
  induction p generalizing id k with
  | nil => rw [ClosurePath.nil_iff, ClosurePath.nil_iff]
  | cons turn p ih =>
    obtain ⟨m, side⟩ := turn
    obtain ⟨node, hn, _⟩ := kind?_eq_some_iff.1 hk
    rw [ClosurePath.cons_iff, ClosurePath.cons_iff, h.kind? hk, hk]
    refine and_congr_right fun _ => and_congr_right fun hcomb => ?_
    obtain ⟨l, e, hlc⟩ := hcomb
    cases e
    have hfree : ∀ i, ¬ touched (id, i) := by
      refine hc hk ?_
      obtain rfl | rfl := special_eq_combineClosure.1 hlc <;> rfl
    rw [h.inputLinkByName? hn hfree]
    refine exists_congr fun source => exists_congr fun output => and_congr_right fun hl => ?_
    obtain ⟨l, hkl⟩ := hv.kind?_of_inputLinkByName? hl
    exact ih hkl

/-- The nodes of a path are mixes and sums of the network. -/
lemma ClosurePath.combine_of_mem (hp : net.ClosurePath id p x) {turn : NodeId × Side}
    (ht : turn ∈ p) : ∃ k, net.kind? turn.1 = some k ∧ k.special = .combineClosure := by
  induction hp with
  | here => cases ht
  | step hk hc _ _ ih =>
    obtain rfl | ht := List.mem_cons.1 ht
    · exact ⟨_, hk, hc⟩
    · exact ih ht

lemma ClosurePath.exists_kind? (hv : net.Valid) (hp : net.ClosurePath id p x)
    (hk : net.kind? id = some k) : ∃ l, net.kind? x = some l := by
  induction hp generalizing k with
  | here => exact ⟨k, hk⟩
  | step _ _ hl _ ih =>
    obtain ⟨l, hkl⟩ := hv.kind?_of_inputLinkByName? hl
    exact ih hkl

lemma Weighed.pathWeight_eq (h : Weighed touched net net') (hc : net.OnlyClosures touched)
    (hp : net.ClosurePath id p x) : net'.pathWeight env p = net.pathWeight env p := by
  rw [pathWeight, pathWeight]
  refine congrArg List.prod (List.map_congr_left fun turn ht => ?_)
  obtain ⟨k, hk, hkc⟩ := hp.combine_of_mem ht
  obtain ⟨node, hn, _⟩ := kind?_eq_some_iff.1 hk
  have hfree : ∀ i, ¬ touched (turn.1, i) := by
    refine hc hk ?_
    obtain rfl | rfl := special_eq_combineClosure.1 hkc <;> rfl
  rw [sideWeight, sideWeight, h.kind? hk, hk, h.factor hn hfree]

lemma Weighed.pathSum_eq (hv : net.Valid) (h : Weighed touched net net')
    (hc : net.OnlyClosures touched) (hk : net.kind? id = some k) :
    net'.pathSum env id x = net.pathSum env id x := by
  have hset : {p | net'.ClosurePath id p x} = {p | net.ClosurePath id p x} :=
    Set.ext fun p => h.closurePath_iff hv hc hk
  rw [pathSum, pathSum, hset]
  exact finsum_mem_congr rfl fun p hp => h.pathWeight_eq hc hp

end Paths

/-! ## One step of the walk -/

/-- The number that a weight carries; no output stands for one. -/
def WeightIs (net : Network) (env : NodeId × Nat → ℚ) (w : Weight) (v : ℚ) : Prop :=
  match w with
  | some s => Value net env (.output s) v
  | none => v = 1

lemma Valid.exists_kind? (h : net.Valid) {n : NodeId}
    (hl : net.inputLink? n i = some s) : ∃ k, net.kind? n = some k :=
  (h.joins (feeds_of_inputLink? hl)).target

lemma WeightIs.weighed {touched : NodeId × Nat → Prop} (hv : net.Valid)
    (h : Weighed touched net net') (hc : net.OnlyClosures touched)
    (hw : net.WeightIs env w v) : net'.WeightIs env w v := by
  cases w with
  | none => exact hw
  | some s => exact Value.weighed h hc hv.exists_kind? hw fun _ _ e => by cases e

/-- An input that is fed from a weight, or holds the constant one, has the weight's value. -/
lemma WeightIs.value (hw : net.WeightIs env w v) (hl : net.inputLink? x i = w)
    (hone : w = none → (net.input? x i).map Input.value = some (.float 1)) :
    Value net env (.input x i) v := by
  cases w with
  | none =>
    have hv : v = exactValue 1 := hw.trans exactValue_one.symm
    exact hv ▸ .held hl (hone rfl)
  | some s => exact .fed hl hw

/-- Splitting a weight gives the first side what the factor leaves and the second the rest. -/
lemma Splits.weightIs (hv : net.Valid) {node : Node}
    (hn : net.node? id = some node) (hk : node.kind = .mixClosure)
    (hs : Splits net id w net' x) (hw : net.WeightIs env w v) :
    net'.WeightIs env (some (x, 0)) (v * (1 - net.factor env id)) ∧
      net'.WeightIs env (some (x, 1)) (v * net.factor env id) := by
  have hw' : net'.WeightIs env w v := hw.weighed hv hs.weighed fun _ _ _ _ _ hf => hf
  have hin : Value net' env (.input x 0) v := hw'.value hs.weight hs.one
  obtain ⟨node', hn', hk'⟩ := kind?_eq_some_iff.1 hs.kind?
  -- Both nodes have a factor input; the new one is fed, or set, like that of the mix.
  have hidx : node.inputIndex? "Fac" = some 0 := by
    rw [(hv.standard hn).inputIndex?, hk]
    rfl
  have hidx' : node'.inputIndex? "Fac" = some 1 := by
    rw [(hs.valid.standard hn').inputIndex?, hk']
    rfl
  have hlink : net.inputLinkByName? id "Fac" = net.inputLink? id 0 := by
    simp [inputLinkByName?, hn, hidx]
  have hlink' : net'.inputLinkByName? x "Fac" = net.inputLink? id 0 := by
    simp [inputLinkByName?, hn', hidx', hs.factor]
  have hfac : net'.factor env x = net.factor env id := by
    rw [Network.factor, Network.factor, hlink, hlink']
    cases hl : net.inputLink? id 0 with
    | some s => rfl
    | none =>
      have hval := (hs.constant hl).trans (hv.value_factor hn hk)
      have hfloat : node'.float "Fac" = node.float "Fac" := by
        rw [input?, hn', bind_some] at hval
        obtain ⟨inp, hinp, hiv⟩ := map_eq_some_iff.1 hval
        rw [Node.float, Node.input?_eq_getElem? hidx', hinp, bind_some, hiv]
        rfl
      rw [hn, hn', map_some, map_some, hfloat]
  rw [← hfac]
  exact ⟨.split₁ hs.kind? hin, .split₂ hs.kind? hin⟩

/-- The split weight is made from the mix and what the weight was made from. -/
lemma Splits.weighedBy
    (hk : net.kind? id = some .mixClosure) (hs : Splits net id w mid x) (hid : M id)
    (hwM : ∀ s, w = some s → net.WeighedBy M s) (o : Nat) : mid.WeighedBy M (x, o) := by
  obtain ⟨node, hn, _⟩ := kind?_eq_some_iff.1 hk
  refine .split hs.kind? (fun s hl => ?_) fun s hl => ⟨id, hid, hs.weighed.kind? hk, ?_⟩
  · rw [hs.weight] at hl
    exact (hwM s hl).weighed hs.weighed fun _ _ _ _ _ hf => hf
  · rw [hs.factor] at hl
    rw [hs.weighed.link hn 0 fun hf => hf, hl]

/-- Adding a weight to a closure adds its value. -/
lemma Adds.value (hv : net.Valid) (hc : net.OnlyClosures (· = (id, input)))
    (hheld : (net.input? id input).map Input.value = some (.float held))
    (hplain : net.inputLink? id input = none → held = 0 ∨ held = 1)
    (hf : Weighed (· = (id, input)) net net') (ha : Adds net id input held w net')
    (hw : net.WeightIs env w v) (hq : Value net env (.input id input) q) :
    Value net' env (.input id input) (q + v) := by
  have hw' : net'.WeightIs env w v := hw.weighed hv hf hc
  -- What the input was before, read off its link or the number it held.
  have hold : ∀ {s}, net.inputLink? id input = some s → Value net env (.output s) q := by
    intro s hs
    cases hq with
    | fed hl hval =>
      rw [hs] at hl
      cases hl
      exact hval
    | held hl _ =>
      rw [hs] at hl
      cases hl
  have hconst : net.inputLink? id input = none → q = exactValue held := by
    intro hs
    cases hq with
    | fed hl _ =>
      rw [hs] at hl
      cases hl
    | held _ hval =>
      rw [hheld] at hval
      cases hval
      rfl
  cases ha with
  | first hfree hzero hlink hvalue =>
    have hh : held = 0 := by
      obtain rfl | rfl := hplain hfree
      · rfl
      · exact absurd hzero (by decide)
    subst hh
    have hq0 : q = 0 := (hconst hfree).trans exactValue_zero
    rw [hq0, zero_add]
    exact hw'.value hlink fun e => (hvalue e).trans (by rw [show (0 : Float32) + 1 = 1 by decide])
  | sum x hx hkx hlink hold' hnew hheld' hone =>
    refine .fed hlink (.sum hkx ?_ (hw'.value hnew hone))
    cases hl : net.inputLink? id input with
    | some s =>
      refine .fed (hold'.trans hl) ?_
      exact Value.weighed hf hc hv.exists_kind? (hold hl) fun _ _ e => by cases e
    | none =>
      rw [hconst hl]
      exact .held (hold'.trans hl) (hheld' hl)

/-- A new sum has no inputs but its two terms. -/
lemma Valid.lt_two_of_inputLink? (hv : net.Valid) {op : MathOp} {clamp : Bool}
    (hk : net.kind? x = some (.math op clamp)) {i : Nat}
    (hl : net.inputLink? x i = some s) : i < 2 := by
  obtain ⟨_, t, _, ht, _⟩ := hv.joins (feeds_of_inputLink? hl)
  obtain ⟨k, y, hk', hy, _⟩ := inputType?_eq_some_iff.1 ht
  rw [hk] at hk'
  cases hk'
  exact (List.getElem?_eq_some_iff.1 hy).1

/-- What is added to a closure joins what its weight was made from before. -/
lemma Adds.weighedBy (hv' : net'.Valid) (hf : Weighed (· = (id, input)) net net')
    (hc : net.OnlyClosures (· = (id, input))) (ha : Adds net id input held w net')
    (hold : ∀ s, net.inputLink? id input = some s → net.WeighedBy M s)
    (hnew : ∀ s, w = some s → net.WeighedBy M s)
    (hs : net'.inputLink? id input = some s) : net'.WeighedBy M s := by
  cases ha with
  | first _ _ hlink _ => exact (hnew s (hlink.symm.trans hs)).weighed hf hc
  | sum x _ hkx hlink hold' hnew' _ _ =>
    rw [hlink] at hs
    cases hs
    refine .sum hkx fun i s hs => ?_
    have hlt := hv'.lt_two_of_inputLink? hkx hs
    interval_cases i
    · exact (hold s (hold'.symm.trans hs)).weighed hf hc
    · exact (hnew s (hnew'.symm.trans hs)).weighed hf hc

/-! ## The walk -/

/-- Weight inputs without a link hold zero or one. -/
def Plain (base : Network) (volume : Bool) (net : Network) : Prop :=
  ∀ b, base.IsWeight volume b → net.inputLink? b.1 b.2 = none →
    ∃ c, (net.input? b.1 b.2).map Input.value = some (.float c) ∧ (c = 0 ∨ c = 1)

/-- The weight inputs that are linked belong to closures of a kind, and their weights are made from
mixes of that kind. -/
def Sourced (base : Network) (volume : Bool) (M : NodeId → Prop) (net : Network) : Prop :=
  ∀ b, base.IsWeight volume b → ∀ s, net.inputLink? b.1 b.2 = some s → M b.1 ∧ net.WeighedBy M s

/-- What feeds the sides of a mix or a sum of a kind is of that kind. -/
def Descends (base : Network) (M : NodeId → Prop) : Prop :=
  ∀ ⦃id source k output⦄ {side : Side}, M id → base.kind? id = some k →
    k.special = .combineClosure → base.inputLinkByName? id side.input = some (source, output) →
      M source

/-- What the walk from some nodes does to a network that grew out of `base`, if the weights of
their paths to a closure add up to `sum`. -/
structure Distributed (base : Network) (volume : Bool) (roots : NodeId → Prop)
    (sum : (NodeId × Nat → ℚ) → NodeId → ℚ) (fuel : Nat) (w : Weight) (net net' : Network) :
    Prop where
  valid : net'.Valid
  weighed : Weighed (base.IsWeight volume) net net'
  plain : base.Plain volume net → base.Plain volume net'
  value : (∀ root p x, roots root → base.ClosurePath root p x → p.length < fuel) →
    base.Plain volume net → ∀ env v, net.WeightIs env w v → ∀ b, base.IsWeight volume b → ∀ q,
      Value net env (.input b.1 b.2) q → Value net' env (.input b.1 b.2) (q + v * sum env b.1)
  sourced : ∀ M, base.Descends M → (∀ root, roots root → M root) →
    (∀ s, w = some s → net.WeighedBy M s) → base.Sourced volume M net → base.Sourced volume M net'

section

variable (hb : Weighed base.AnyWeight base net)
include hb

/-- Kinds of closures are those of the network that the walk started with. -/
lemma Weighed.not_isWeight : net.OnlyClosures (base.IsWeight volume) := by
  rintro n k hk hc i ⟨l, hl, hi⟩
  rw [hb.kind? hl] at hk
  cases hk
  rw [(weightIndex?_ofKind hi).1] at hc
  cases hc

variable {touched : NodeId × Nat → Prop} (hf : Weighed touched net net') {b : NodeId × Nat}
include hf

lemma Weighed.weight_eq (hw : base.IsWeight volume b) (ht : ¬ touched b) :
    net'.inputLink? b.1 b.2 = net.inputLink? b.1 b.2 ∧
      net'.input? b.1 b.2 = net.input? b.1 b.2 := by
  obtain ⟨k, hk, _⟩ := hw
  obtain ⟨node, hn, _⟩ := kind?_eq_some_iff.1 (hb.kind? hk)
  exact ⟨hf.link hn b.2 ht, hf.input? hn ht⟩

lemma Plain.weighed (ht : ∀ b, base.IsWeight volume b → ¬ touched b) (h : base.Plain volume net) :
    base.Plain volume net' := by
  intro b hw hl
  obtain ⟨hlink, hinput⟩ := hb.weight_eq hf hw (ht b hw)
  rw [hlink] at hl
  rw [hinput]
  exact h b hw hl

lemma Sourced.weighed {M : NodeId → Prop} (hc : net.OnlyClosures touched)
    (h : base.Sourced volume M net) (hw : base.IsWeight volume b)
    (ht : ¬ touched b) {s : NodeId × Nat} (hs : net'.inputLink? b.1 b.2 = some s) :
    M b.1 ∧ net'.WeighedBy M s := by
  rw [(hb.weight_eq hf hw ht).1] at hs
  obtain ⟨hM, hsource⟩ := h b hw s hs
  exact ⟨hM, hsource.weighed hf hc⟩

end

section Walk

variable {id : NodeId} {k : NodeKind} {node : Node} {w : Weight} {fuel : Nat}

section

variable (hv : net.Valid) (hb : Weighed base.AnyWeight base net) (hk : base.kind? id = some k)
include hv hb hk

lemma Weighed.addWeight_spec (hn : net.node? id = some node) (hw : net.Carrier w)
    (hi : node.weightIndex? volume = some input) :
    (Node.ofKind k).weightIndex? volume = some input ∧
      ∃ held, (net.input? id input).map Input.value = some (.float held) ∧
        (net.addWeight id node input w).Valid ∧
        Weighed (· = (id, input)) net (net.addWeight id node input w) ∧
        Adds net id input held w (net.addWeight id node input w) := by
  have hkind : node.kind = k := by
    have := hb.kind? hk
    rw [kind?_of_node? hn] at this
    exact some.inj this
  have hst := hv.standard hn
  have hidx : (Node.ofKind k).weightIndex? volume = some input := by
    rw [← hkind, ← hi, Node.weightIndex?, Node.weightIndex?, hst.inputIndex?]
  have hwn : net.IsWeight volume (id, input) := ⟨k, hb.kind? hk, hidx⟩
  -- The input is there and holds a number, whatever feeds it.
  obtain ⟨held, hheld⟩ : ∃ c, (net.input? id input).map Input.value = some (.float c) := by
    have hty := hwn.inputType?
    rw [hv.inputType?_eq hn] at hty
    obtain ⟨inp, hinp, hit⟩ := map_eq_some_iff.1 hty
    have hfits := hst.fits inp (List.mem_of_getElem? hinp)
    rw [hit] at hfits
    rw [Network.input?, hn, bind_some, hinp]
    cases hval : inp.value <;> rw [hval] at hfits <;>
      first | exact ⟨_, by rw [map_some, hval]⟩ | cases hfits
  refine ⟨hidx, held, hheld, hv.addWeight_spec hn ?_ hwn.inputType? hw hheld⟩
  exact hkind ▸ NodeKind.handlesClosures_of_isClosure (weightIndex?_ofKind hidx).1

lemma Distributed.leaf (hc : k.special ≠ .combineClosure)
    (hn : net.node? id = some node) (hw : net.Carrier w)
    (hi : node.weightIndex? volume = some input) :
    Distributed base volume (· = id) (fun env => base.pathSum env id) fuel w net
      (net.addWeight id node input w) := by
  obtain ⟨hidx, held, hheld, hv', hf, ha⟩ := hb.addWeight_spec hv hk hn hw hi
  have hwt : base.IsWeight volume (id, input) := ⟨k, hk, hidx⟩
  have honly : net.OnlyClosures (· = (id, input)) :=
    fun _ _ hl hlc i e => hb.not_isWeight hl hlc i (e ▸ hwt)
  have hplain : base.Plain volume net → net.inputLink? id input = none → held = 0 ∨ held = 1 := by
    intro hp hfree
    obtain ⟨c, hc, h01⟩ := hp _ hwt hfree
    rw [hheld] at hc
    cases hc
    exact h01
  refine ⟨hv', hf.mono fun b (e : b = (id, input)) => e ▸ hwt, fun hp b hb' hl => ?_,
    fun _ hp env v hwv b hb' q hq => ?_, fun M _ hid hwM h b hb' s hs => ?_⟩
  · by_cases e : b = (id, input)
    · subst e
      cases ha with
      | first hfree hzero hlink hvalue =>
        obtain rfl | rfl := hplain hp hfree
        · exact ⟨_, hvalue (hlink.symm.trans hl), .inr (by decide)⟩
        · exact absurd hzero (by decide)
      | sum x _ _ hlink _ _ _ _ =>
        rw [hlink] at hl
        cases hl
    · obtain ⟨hlink, hinput⟩ := hb.weight_eq hf hb' e
      exact hinput ▸ hp b hb' (hlink ▸ hl)
  · rw [pathSum_leaf hk hc]
    by_cases e : b = (id, input)
    · subst e
      rw [if_pos rfl, mul_one]
      exact ha.value hv honly hheld (hplain hp) hf hwv hq
    · have hne : id ≠ b.1 := by
        intro e'
        obtain ⟨l, hl, hli⟩ := hb'
        rw [← e', hk] at hl
        cases hl
        rw [hidx] at hli
        exact e (Prod.ext e'.symm (some.inj hli).symm)
      rw [if_neg hne, mul_zero, add_zero]
      refine hq.weighed hf honly hv.exists_kind? fun n i e' => ?_
      cases e'
      exact e
  · by_cases e : b = (id, input)
    · subst e
      exact ⟨hid id rfl, ha.weighedBy hv' hf honly (fun s hs => (h _ hwt s hs).2) hwM hs⟩
    · exact h.weighed hb hf honly hb' e hs

/-- A node that is neither a closure with a weight nor combines closures is passed over. -/
lemma Distributed.pass (hc : k.special ≠ .combineClosure)
    (hn : net.node? id = some node) (hi : node.weightIndex? volume = none) :
    Distributed base volume (· = id) (fun env => base.pathSum env id) fuel w net net := by
  refine ⟨hv, .refl, fun hp => hp, fun _ _ env v _ b hb' q hq => ?_, fun _ _ _ _ h => h⟩
  have hne : id ≠ b.1 := by
    rintro rfl
    obtain ⟨l, hl, hli⟩ := hb'
    have hkind := kind?_of_node? hn
    rw [hb.kind? hl] at hkind
    rw [some.inj hkind] at hli
    rw [Node.weightIndex?, (hv.standard hn).inputIndex?] at hi
    rw [Node.weightIndex?, hi] at hli
    cases hli
  rw [pathSum_leaf hk hc, if_neg hne, mul_zero, add_zero]
  exact hq

end

/-- The network after the walk below what feeds an input. -/
def walkFrom (base : Network) (volume : Bool) (fuel : Nat) (id : NodeId) (name : String)
    (net : Network) (w : Weight) : Network :=
  match base.inputLinkByName? id name with
  | some (source, _) => distribute volume fuel net source w
  | none => net

/-- How a mix or a sum gives a weight to its sides. -/
structure Divides (base net : Network) (id : NodeId) (w : Weight) (mid : Network)
    (w' : Side → Weight) : Prop where
  valid : mid.Valid
  weighed : Weighed (fun _ => False) net mid
  carrier : ∀ side, mid.Carrier (w' side)
  value : ∀ env v, net.WeightIs env w v → ∀ side,
    mid.WeightIs env (w' side) (v * base.sideWeight env (id, side))
  source : ∀ {M : NodeId → Prop}, M id → (∀ s, w = some s → net.WeighedBy M s) →
    ∀ side s, w' side = some s → mid.WeighedBy M s

section

variable (hbase : base.Valid) (hv : net.Valid) (hb : Weighed base.AnyWeight base net)
  (ih : ∀ {net source w l}, net.Valid → Weighed base.AnyWeight base net →
    base.kind? source = some l → net.Carrier w →
      Distributed base volume (· = source) (fun env => base.pathSum env source) fuel w net
        (distribute volume fuel net source w))
include hbase hv hb ih

lemma Distributed.walkFrom (hw : net.Carrier w) (id : NodeId) (name : String) :
    Distributed base volume (fun root => ∃ o, base.inputLinkByName? id name = some (root, o))
      (fun env => base.terminalSum env id name) fuel w net
      (base.walkFrom volume fuel id name net w) := by
  unfold Network.walkFrom terminalSum
  cases hl : base.inputLinkByName? id name with
  | none =>
    refine ⟨hv, .refl, fun hp => hp, fun _ _ env v _ b _ q hq => ?_, fun _ _ _ _ h => h⟩
    rwa [mul_zero, add_zero]
  | some s =>
    obtain ⟨l, hkl⟩ := hbase.kind?_of_inputLinkByName? hl
    have hd := ih hv hb hkl hw
    refine ⟨hd.valid, hd.weighed, hd.plain, fun hfar => hd.value ?_, fun M hM hroot => ?_⟩
    · rintro root p x rfl
      exact hfar _ p x ⟨_, rfl⟩
    · refine hd.sourced M hM ?_
      rintro root rfl
      exact hroot _ ⟨_, rfl⟩

lemma Divides.distributed {w' : Side → Weight} (hd : Divides base net id w mid w')
    (hk : base.kind? id = some k) (hc : k.special = .combineClosure) :
    Distributed base volume (· = id) (fun env => base.pathSum env id) (fuel + 1) w net
      (base.walkFrom volume fuel id Side.second.input
        (base.walkFrom volume fuel id Side.first.input mid (w' .first)) (w' .second)) := by
  have hnm : Weighed (base.IsWeight volume) net mid := hd.weighed.mono fun _ hf => hf.elim
  have hbm : Weighed base.AnyWeight base mid := hb.trans (hnm.mono fun _ h => ⟨volume, h⟩)
  have h₁ := Distributed.walkFrom hbase hd.valid hbm ih (hd.carrier .first) id Side.first.input
  have hb₁ := hbm.trans (h₁.weighed.mono fun _ h => ⟨volume, h⟩)
  have h₂ := Distributed.walkFrom hbase h₁.valid hb₁ ih
    ((hd.carrier .second).congr h₁.weighed.kind?) id Side.second.input
  -- The first step adds a node and changes nothing that was there.
  have hplain : base.Plain volume net → base.Plain volume mid :=
    .weighed hb hd.weighed fun _ _ hf => hf
  refine ⟨h₂.valid, hnm.trans (h₁.weighed.trans h₂.weighed),
    fun hp => h₂.plain (h₁.plain (hplain hp)), fun hfar hp env v hwv b hb' q hq => ?_,
    fun M hM hid hwM h => ?_⟩
  · have hside : ∀ (side : Side) root p x, (∃ o, base.inputLinkByName? id side.input =
        some (root, o)) → base.ClosurePath root p x → p.length < fuel := by
      rintro side root p x ⟨o, hl⟩ hpath
      have := hfar id _ x rfl (.step hk hc hl hpath)
      rw [List.length_cons] at this
      omega
    have hqm : Value mid env (.input b.1 b.2) q :=
      hq.weighed hd.weighed (fun _ _ _ _ _ hf => hf) hv.exists_kind? fun _ _ _ hf => hf
    have hq₁ := h₁.value (hside .first) (hplain hp) env _ (hd.value env v hwv .first) b hb' q hqm
    have hq₂ := h₂.value (hside .second) (h₁.plain (hplain hp)) env _
      ((hd.value env v hwv .second).weighed hd.valid h₁.weighed hbm.not_isWeight) b hb' _ hq₁
    have hne : id ≠ b.1 := by
      rintro rfl
      obtain ⟨l, hl, hli⟩ := hb'
      rw [hk] at hl
      cases hl
      have := (weightIndex?_ofKind hli).1
      obtain rfl | rfl := special_eq_combineClosure.1 hc <;> cases this
    rwa [hbase.pathSum_combine hk hc hne, branchSum, branchSum, mul_add, ← add_assoc, ← mul_assoc,
      ← mul_assoc]
  · have hw' := hd.source (hid id rfl) hwM
    have hroot : ∀ (side : Side) root,
        (∃ o, base.inputLinkByName? id side.input = some (root, o)) → M root := by
      rintro side root ⟨o, hl⟩
      exact hM (hid id rfl) hk hc hl
    refine h₂.sourced M hM (hroot .second)
      (fun s hs => (hw' .second s hs).weighed h₁.weighed hbm.not_isWeight) ?_
    exact h₁.sourced M hM (hroot .first) (hw' .first) fun b hb' s hs =>
      h.weighed hb hd.weighed (fun _ _ _ _ _ hf => hf) hb' (fun hf => hf) hs

end

/-- Both sides of a split weight can be linked. -/
lemma Splits.carrier {x : NodeId} (hs : Splits net id w mid x) {o : Nat}
    (ho : o < 2) : mid.Carrier (some (x, o)) := by
  rintro s hs'
  cases hs'
  refine ⟨?_, _, hs.kind?, rfl⟩
  rw [outputType?, hs.kind?]
  interval_cases o <;> rfl

/-- What the walk does at a mix or a sum: the weight is split, and the walk goes down both sides. -/
lemma Weighed.distribute_combine (hv : net.Valid) (hb : Weighed base.AnyWeight base net)
    (hk : base.kind? id = some k) (hc : k.special = .combineClosure) (hw : net.Carrier w) :
    ∃ mid w', Divides base net id w mid w' ∧ distribute volume (fuel + 1) net id w =
      base.walkFrom volume fuel id Side.second.input
        (base.walkFrom volume fuel id Side.first.input mid (w' .first)) (w' .second) := by
  obtain ⟨node, hn, hkind⟩ := kind?_eq_some_iff.1 (hb.kind? hk)
  obtain ⟨node₀, hn₀, _⟩ := kind?_eq_some_iff.1 hk
  -- The sides are linked as they were when the walk began.
  have hfree : ∀ i, ¬ base.AnyWeight (id, i) := by
    refine not_anyWeight hk ?_
    obtain rfl | rfl := special_eq_combineClosure.1 hc <;> rfl
  have hlink : ∀ side : Side, (node.inputIndex? side.input).bind (net.inputLink? id) =
      base.inputLinkByName? id side.input := by
    intro side
    rw [← hb.inputLinkByName? hn₀ hfree]
    simp [Network.inputLinkByName?, hn]
  have hfirst := hlink .first
  have hsecond := hlink .second
  simp only [Side.input] at hfirst hsecond
  rw [distribute, hn]
  dsimp only
  rw [if_pos (hkind ▸ hc), hfirst, hsecond]
  obtain rfl | rfl := special_eq_combineClosure.1 hc
  · obtain ⟨mid, x, hsplit, hs⟩ := hv.splitWeight_mix hn hkind hw
    rw [hsplit]
    refine ⟨mid, Side.choose (some (x, 0)) (some (x, 1)), ⟨hs.valid, hs.weighed, ?_, ?_, ?_⟩, rfl⟩
    · intro side
      cases side <;> exact hs.carrier (by omega)
    · intro env v hwv side
      obtain ⟨h₁, h₂⟩ := hs.weightIs hv hn hkind hwv
      rw [hb.factor hn₀ (not_anyWeight hk rfl)] at h₁ h₂
      cases side <;> simpa [sideWeight, hk]
    · intro M hid hwM side s e
      cases side <;> cases e <;> exact hs.weighedBy (hb.kind? hk) hid hwM _
  · have hfac : node.inputIndex? "Fac" = none := by
      rw [(hv.standard hn).inputIndex?, hkind]
      rfl
    have hsplit : net.splitWeight id node w = (net, w, w) := by
      rw [splitWeight, hfac]
    rw [hsplit]
    refine ⟨net, fun _ => w, ⟨hv, .refl, fun _ => hw, fun env v hwv side => ?_,
      fun _ hwM _ => hwM⟩, rfl⟩
    simpa [sideWeight, hk] using hwv

/-- What the walk below a node does. -/
theorem distribute_spec (hbase : base.Valid) (hv : net.Valid)
    (hb : Weighed base.AnyWeight base net) (hk : base.kind? id = some k) (hw : net.Carrier w) :
    Distributed base volume (· = id) (fun env => base.pathSum env id) fuel w net
      (distribute volume fuel net id w) := by
  induction fuel generalizing net id w k with
  | zero =>
    refine ⟨hv, .refl, fun hp => hp, fun hfar => ?_, fun _ _ _ _ h => h⟩
    exact absurd (hfar id [] id rfl (.here id)) (by simp)
  | succ fuel ih =>
    obtain ⟨node, hn, hkind⟩ := kind?_eq_some_iff.1 (hb.kind? hk)
    by_cases hc : k.special = .combineClosure
    · obtain ⟨mid, w', hd, heq⟩ := hb.distribute_combine hv hk hc hw
      rw [heq]
      exact hd.distributed hbase hv hb ih hk hc
    · rw [distribute, hn]
      dsimp only
      rw [if_neg (hkind ▸ hc)]
      cases hi : node.weightIndex? volume with
      | some input => exact .leaf hv hb hk hc hn hw hi
      | none => exact .pass hv hb hk hc hn hi

/-- What the walk from a terminal does. -/
theorem distributeFrom_spec (hbase : base.Valid) (hv : net.Valid)
    (hb : Weighed base.AnyWeight base net) {output : NodeId}
    (ho : base.kind? output = some .output) (terminal : String) (volume : Bool) :
    Distributed base volume
      (fun root => ∃ o, base.inputLinkByName? output terminal = some (root, o))
      (fun env => base.terminalSum env output terminal) (net.nodeCount + 1) none net
      (net.distributeFrom output terminal volume) := by
  obtain ⟨node, hn, _⟩ := kind?_eq_some_iff.1 ho
  unfold distributeFrom
  rw [hb.inputLinkByName? hn (not_anyWeight ho rfl) terminal]
  exact .walkFrom hbase hv hb (distribute_spec hbase) (fun s e => by cases e) _ terminal

end Walk

end Network

end Shading
