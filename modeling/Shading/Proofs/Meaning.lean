import Mathlib.Data.Finsupp.SMul
import Shading.Proofs.Stability
import Shading.Proofs.Standard

/-!
# Folding keeps the meaning

The meaning of an input is what arrives there: a value, or for a closure a formal weighted sum.  It
is given by equations, one for each input: an input that something feeds has what the output gives,
any other one the constant that it holds.  What an output gives is a function of what the inputs of
its node have.  The function is fixed for the kinds that folding knows and arbitrary for all others,
scripts among them (`Interpretation`).

A rank grows along links, so the equations have one solution (`Network.Fitted.solves_meaning`,
`Network.Fitted.solves_unique`).  Folding changes the equations, and every change it makes keeps the
solution: a constant is copied where it arrives anyway, a light source is cut off where it
contributes nothing, and a mix is gone around where its factor leaves only one side.  This is shown
for each change and then for rounds of them (`Network.Modelled`).
-/

namespace Shading

open Node Option

variable {input i : Nat} {value v : SocketValue} {name : String} {t s : SocketType}

/-! ## Meanings -/

/-- What a socket has: a value, or the formal weighted sum that a closure is. -/
inductive Meaning (R A : Type*) [Zero R] where
  | data (value : SocketValue)
  | closure (sum : A →₀ R)

namespace Meaning

variable {R A : Type*} [Zero R]

def sum : Meaning R A → A →₀ R
  | .data _ => 0
  | .closure c => c

def isBlack : Meaning R A → Bool
  | .data (.vec3 color) => color.isZero
  | _ => false

def isOff : Meaning R A → Bool
  | .data (.float strength) => strength == 0
  | _ => false

/-- What arrives at an input of type `t` from an output of type `s`: a number fills all components
of a vector. -/
def carry (s t : Option SocketType) (m : Meaning R A) : Meaning R A :=
  if t = some .closure then .closure m.sum
  else match m with
    | .data (.float v) =>
      if s = some .float ∧ t.any SocketType.isVec3 = true then .data (.vec3 (Vec3.splat v))
      else .data (.float v)
    | m => m

@[simp] lemma carry_closure (s : Option SocketType) (m : Meaning R A) :
    m.carry s (some .closure) = .closure m.sum := if_pos rfl

end Meaning

/-- What an input has while nothing feeds it. -/
def Input.meaning {R A : Type*} [Zero R] (i : Input) : Meaning R A :=
  if i.ty = .closure then .closure 0 else .data i.value

/-- A reading of what folding leaves open: the weight that a factor stands for, of which only zero
and one are fixed, and what the outputs of all other nodes give, by what their inputs have. -/
structure Interpretation (R A : Type*) [Ring R] where
  weight : Float32 → R
  weight_zero : ∀ {x : Float32}, (x == 0) = true → weight x = 0
  weight_one : ∀ {x : Float32}, (x == 1) = true → weight x = 1
  node : NodeId → Form → Nat → List (Meaning R A) → Meaning R A

variable {R A : Type*} [Ring R]

/-- What an output of a node gives, by what the inputs of the node have.  Light that is black or off
is the empty sum. -/
noncomputable def Interpretation.output (I : Interpretation R A) (id : NodeId) (f : Node.Form)
    (o : Nat) (ins : List (Meaning R A)) : Meaning R A :=
  match f.kind with
  | .value v => .data (.float v)
  | .rgb color => .data (.vec3 color)
  | .math op useClamp =>
    match ins with
    | [.data (.float a), .data (.float b)] => .data (.float (op.applyClamped useClamp a b))
    | _ => I.node id f o ins
  | .emission | .background =>
    match ins with
    | color :: strength :: _ =>
      if color.isBlack || strength.isOff then .closure 0 else I.node id f o ins
    | _ => I.node id f o ins
  | .mixClosure =>
    match ins with
    | [.data (.float x), c, d] => .closure ((1 - I.weight x) • c.sum + I.weight x • d.sum)
    | _ => I.node id f o ins
  | .addClosure =>
    match ins with
    | [c, d] => .closure (c.sum + d.sum)
    | _ => I.node id f o ins
  | _ => I.node id f o ins

/-- The position of an input that a kind starts with, by name, and its type. -/
def NodeKind.socket? (k : NodeKind) (name : String) : Option (Nat × SocketType) :=
  ((ofKind k).inputIndex? name).bind fun i => (k.inputs[i]?).map fun input => (i, input.ty)

namespace Network

variable {net net' : Network} {rank : NodeId → Nat} {a b : NodeId × Nat} {id : NodeId} {node : Node}
  {I : Interpretation R A} {M M' : NodeId × Nat → Meaning R A} {N : Node → Prop}

/-- What an output gives if inputs have what `M` says. -/
noncomputable def atOutput (net : Network) (I : Interpretation R A)
    (M : NodeId × Nat → Meaning R A) (a : NodeId × Nat) : Meaning R A :=
  match net.form? a.1 with
  | some f => I.output a.1 f a.2 ((List.range f.inputs.length).map fun i => M (a.1, i))
  | none => .closure 0

/-- What arrives at an input if inputs have what `M` says. -/
noncomputable def atInput (net : Network) (I : Interpretation R A)
    (M : NodeId × Nat → Meaning R A) (b : NodeId × Nat) : Meaning R A :=
  match net.inputLink? b.1 b.2 with
  | some a => (net.atOutput I M a).carry (net.sourceType? a) (net.targetType? b)
  | none => (net.input? b.1 b.2).elim (.closure 0) Input.meaning

def Solves (net : Network) (I : Interpretation R A) (M : NodeId × Nat → Meaning R A) : Prop :=
  ∀ b, M b = net.atInput I M b

/-- What every input has: the values are handed on as often as there are nodes. -/
noncomputable def meaning (net : Network) (I : Interpretation R A) : NodeId × Nat → Meaning R A :=
  (net.atInput I)^[net.nodeCount] fun _ => .closure 0

/-! ## One solution -/

lemma atInput_of_inputLink? (hl : net.inputLink? b.1 b.2 = some a) :
    net.atInput I M b = (net.atOutput I M a).carry (net.sourceType? a) (net.targetType? b) := by
  rw [atInput, hl]

lemma atInput_of_none (hl : net.inputLink? b.1 b.2 = none) :
    net.atInput I M b = (net.input? b.1 b.2).elim (.closure 0) Input.meaning := by
  rw [atInput, hl]

lemma atOutput_of_form? {f : Form} (hf : net.form? a.1 = some f) : net.atOutput I M a =
    I.output a.1 f a.2 ((List.range f.inputs.length).map fun i => M (a.1, i)) := by
  rw [atOutput, hf]

lemma atOutput_congr (h : ∀ i, M (a.1, i) = M' (a.1, i)) :
    net.atOutput I M a = net.atOutput I M' a := by
  simp only [atOutput, h]

lemma atInput_congr (h : ∀ a, net.inputLink? b.1 b.2 = some a → ∀ i, M (a.1, i) = M' (a.1, i)) :
    net.atInput I M b = net.atInput I M' b := by
  cases hl : net.inputLink? b.1 b.2 with
  | none => rw [atInput_of_none hl, atInput_of_none hl]
  | some a => rw [atInput_of_inputLink? hl, atInput_of_inputLink? hl, atOutput_congr (h a hl)]

/-- Handing on more often than the rank of a node changes nothing at its inputs. -/
lemma iterate_atInput_eq (hr : ∀ {a b}, net.Feeds a b → rank a.1 < rank b.1)
    (M : NodeId × Nat → Meaning R A) (b : NodeId × Nat) {d e : Nat} (hd : rank b.1 < d)
    (he : rank b.1 < e) : (net.atInput I)^[d] M b = (net.atInput I)^[e] M b := by
  induction d generalizing b e with
  | zero => exact absurd hd (Nat.not_lt_zero _)
  | succ d ih =>
    cases e with
    | zero => exact absurd he (Nat.not_lt_zero _)
    | succ e =>
      rw [Function.iterate_succ_apply', Function.iterate_succ_apply']
      refine atInput_congr fun a hl i => ih (a.1, i) ?_ ?_
      all_goals
        have hlt : rank a.1 < rank b.1 := hr (feeds_of_inputLink? hl)
        dsimp only
        omega

lemma Fitted.solves_meaning (h : net.Fitted N rank) :
    net.Solves I (net.meaning I) := by
  obtain ⟨low, hlow, _, _, hlt⟩ := net.exists_rank_le rank
  have hr : ∀ {a b}, net.Feeds a b → low a.1 < low b.1 :=
    fun hab => hlow (h.mem_ids hab).1 (h.ranked hab)
  intro b
  by_cases hb : b.1 ∈ net.ids
  · have hpos := hlt b.1 hb
    have hstep := iterate_atInput_eq (I := I) hr (fun _ => .closure 0) b hpos
      (hpos.trans (Nat.lt_succ_self _))
    rwa [Function.iterate_succ_apply'] at hstep
  · -- Nothing is there, and nothing arrives.
    have hnone : net.inputLink? b.1 b.2 = none := h.tidy.inputLink?_eq_none_iff.2
      fun a hab => hb (h.mem_ids hab).2
    have hinput : net.input? b.1 b.2 = none := by
      rw [input?, bind_eq_none_iff]
      exact fun node hn => absurd (mem_ids.2 ⟨node, hn⟩) hb
    have hzero : ∀ M : NodeId × Nat → Meaning R A, net.atInput I M b = .closure 0 := fun M => by
      rw [atInput_of_none hnone, hinput, elim_none]
    rw [hzero, meaning]
    cases net.nodeCount with
    | zero => rfl
    | succ n => rw [Function.iterate_succ_apply', hzero]

lemma Fitted.solves_unique (h : net.Fitted N rank) (hM : net.Solves I M) (hM' : net.Solves I M') :
    M = M' := by
  funext b
  induction hb : rank b.1 using Nat.strong_induction_on generalizing b with
  | _ n ih =>
    rw [hM b, hM' b]
    refine atInput_congr fun a hl i => ih (rank a.1) ?_ (a.1, i) rfl
    exact hb ▸ h.ranked (feeds_of_inputLink? hl)

/-- The equations have one solution. -/
lemma Fitted.solves_iff (h : net.Fitted N rank) :
    net.Solves I M ↔ M = net.meaning I := by
  refine ⟨fun hM => h.solves_unique hM h.solves_meaning, ?_⟩
  rintro rfl
  exact h.solves_meaning

/-! ## What the network needs -/

/-- Links can number the sockets, which are those of the kind unless the node is a script. -/
structure Equipped (n : Node) : Prop extends n.Addressable where
  standard : n.kind.isScript = false → n.Standard

instance : Addressing Equipped where
  addressable h := h.toAddressable
  ofKind k := ⟨addressable_ofKind k, fun _ => .ofKind k⟩
  setValue h hv := ⟨Addressing.setValue h.toAddressable hv, fun hk => (h.standard hk).setValue hv⟩

/-- A network in which `M` is what inputs have, with what it takes to say so. -/
structure Modelled (I : Interpretation R A) (M : NodeId × Nat → Meaning R A)
    (rank : NodeId → Nat) (net : Network) : Prop where
  fitted : net.Fitted Equipped rank
  solves : net.Solves I M

/-- A network with the same nodes up to values: only inputs that are fed by something else, or hold
something else, have to be looked at. -/
lemma Solves.of_form? (h : net.Solves I M) (hf : ∀ n, net'.form? n = net.form? n)
    (hb : ∀ b, net'.inputLink? b.1 b.2 = net.inputLink? b.1 b.2 ∧
        net'.input? b.1 b.2 = net.input? b.1 b.2 ∨ M b = net'.atInput I M b) :
    net'.Solves I M := by
  intro b
  obtain ⟨hl, hi⟩ | hb := hb b
  · rw [h b]
    simp only [atInput, atOutput, hl, hi, hf, sourceType?_congr hf, targetType?_congr hf]
  · exact hb

lemma Tidy.inputLink?_removeOutgoing (h : net.Tidy) (id : NodeId) (b : NodeId × Nat) :
    (net.removeOutgoing id).inputLink? b.1 b.2 =
      open Classical in if ∃ o, net.Feeds (id, o) b then none else net.inputLink? b.1 b.2 := by
  obtain ⟨ht, _, hf⟩ := h.removeOutgoing_spec id
  split
  · rename_i hid
    obtain ⟨o, ho⟩ := hid
    refine ht.inputLink?_eq_none_iff.2 fun a ha => ?_
    obtain ⟨ha, hne⟩ := (hf _ _).1 ha
    have hsame := (h.inputLink?_eq_some_iff.2 ha).symm.trans (h.inputLink?_eq_some_iff.2 ho)
    exact hne (congrArg Prod.fst (some.inj hsame))
  · rename_i hid
    ext a
    rw [ht.inputLink?_eq_some_iff, hf, h.inputLink?_eq_some_iff, and_iff_left_iff_imp]
    rintro ha rfl
    exact hid ⟨a.2, ha⟩

/-- Links from one output to several inputs. -/
lemma Fitted.foldl_link [Addressing N] (h : net.Fitted N rank)
    {source : NodeId × Nat} {targets : List (NodeId × Nat)}
    (ht : ∀ c ∈ targets, net.FitsBelow rank source c) :
    (targets.foldl (fun net c => net.link source c.1 c.2) net).Fitted N rank ∧
      (∀ n, (targets.foldl (fun net c => net.link source c.1 c.2) net).node? n = net.node? n) ∧
      ∀ b : NodeId × Nat,
        (targets.foldl (fun net c => net.link source c.1 c.2) net).inputLink? b.1 b.2 =
          if b ∈ targets then some source else net.inputLink? b.1 b.2 := by
  induction targets generalizing net with
  | nil => exact ⟨h, fun _ => rfl, fun _ => by simp⟩
  | cons c targets ih =>
    have hc := ht c List.mem_cons_self
    obtain ⟨ho, hi⟩ := h.fits hc.1
    obtain ⟨hfitted, hnode, hlink⟩ := ih (Wired.link h ho hi hc) fun d hd =>
      Wiring.congr (form?_link ..) (form?_link ..) (ht d (List.mem_cons_of_mem _ hd))
    refine ⟨hfitted, fun n => (hnode n).trans (node?_link ..), fun b => (hlink b).trans ?_⟩
    rw [h.tidy.inputLink?_link ho hi]
    by_cases hb : b ∈ targets <;> by_cases e : b = c <;> simp [hb, e]

/-! ## Constants -/

/-- A constant that an input accepts is what arrives there. -/
lemma carry_of_convertConstant
    (hs : ∀ x, value = .float x → s = .float) (h : convertConstant value t = some v) :
    (Meaning.data value : Meaning R A).carry (some s) (some t) = .data v := by
  unfold convertConstant at h
  split at h
  · rename_i x
    obtain rfl := hs x rfl
    split at h
    · rename_i e
      subst e
      cases h
      rfl
    · split at h
      · rename_i hvec
        cases h
        have hne : t ≠ .closure := by
          rintro rfl
          cases hvec
        simp [Meaning.carry, hne, hvec]
      · cases h
  · split at h
    · rename_i hvec
      cases h
      have hne : t ≠ .closure := by
        rintro rfl
        cases hvec
      simp [Meaning.carry, hne]
    · cases h
  · cases h

lemma ne_closure_of_convertConstant (h : convertConstant value t = some v) : t ≠ .closure := by
  rintro rfl
  cases value <;> cases h

/-- An input for closures that nothing feeds has the empty sum. -/
lemma atInput_of_closure (hl : net.inputLink? b.1 b.2 = none)
    (ht : net.targetType? b = some .closure) : net.atInput I M b = .closure 0 := by
  obtain ⟨i, hi, hty⟩ := input?_of_targetType? ht
  rw [atInput_of_none hl, hi, elim_some, Input.meaning, if_pos hty]

namespace Modelled

variable (h : Modelled I M rank net)
include h

lemma form?_eq (hn : net.node? id = some node) {k : NodeKind}
    (hk : node.kind = k) (hs : k.isScript = false) : net.form? id = some (ofKind k).form := by
  subst hk
  obtain ⟨hi, ho, _⟩ := (h.fitted.nodes hn).standard hs
  rw [form?_of_node? hn, form, hi, ho]
  rfl

/-- Copying a constant to where it arrives anyway. -/
lemma foldInto {count : Nat}
    (hb : ∀ {t v}, net.targetType? b = some t → convertConstant value t = some v → M b = .data v) :
    Modelled I M rank (foldInto value (net, count) b).1 := by
  unfold Network.foldInto
  dsimp only
  cases hv : (net.input? b.1 b.2).bind fun i => convertConstant value i.ty with
  | none => exact h
  | some v =>
    obtain ⟨i, hi, hconv⟩ := bind_eq_some_iff.1 hv
    have hset : (net.setValue b.1 b.2 v).Fitted Equipped rank := h.fitted.setValue fun j hj => by
      cases hi.symm.trans hj
      exact fits_of_convertConstant hconv
    refine ⟨Wired.unlink hset _ _, ?_⟩
    refine h.solves.of_form? (fun n => by rw [form?_unlink, form?_setValue]) fun c => ?_
    by_cases e : c = b
    · right
      subst e
      have hl : ((net.setValue c.1 c.2 v).unlink c.1 c.2).inputLink? c.1 c.2 = none := by
        rw [hset.tidy.inputLink?_unlink, if_pos rfl]
      obtain ⟨node, hn, hget⟩ := bind_eq_some_iff.1 hi
      have hin : ((net.setValue c.1 c.2 v).unlink c.1 c.2).input? c.1 c.2 =
          some { i with value := v } := by
        rw [input?, node?_unlink, node?_setValue, if_pos rfl, hn, map_some, bind_some,
          Node.setValue, List.getElem?_modify, hget]
        simp
      rw [atInput_of_none hl, hin, elim_some, Input.meaning,
        if_neg (ne_closure_of_convertConstant hconv)]
      exact hb (targetType?_of_input? hi) hconv
    · left
      have hne : (c.1, c.2) ≠ (b.1, b.2) := e
      constructor
      · rw [hset.tidy.inputLink?_unlink, if_neg hne, inputLink?_setValue]
      · rw [input?, input?, node?_unlink, node?_setValue]
        split
        · rename_i e1
          have hne2 : b.2 ≠ c.2 := fun e2 => e (Prod.ext e1 e2.symm)
          cases net.node? c.1 with
          | none => rfl
          | some node => simp [Node.setValue, hne2]
        · rfl

/-- What the first output gives arrives everywhere it leads to. -/
lemma propagateConstant
    (hs : net.sourceType? (id, 0) = some s) (hfloat : ∀ x, value = .float x → s = .float)
    (hout : net.atOutput I M (id, 0) = .data value) :
    Modelled I M rank (net.propagateConstant id value).1 := by
  refine (List.foldlRecOn (motive := fun acc : Network × Nat => Modelled I M rank acc.1 ∧
    ∀ b, acc.1.targetType? b = net.targetType? b) _ _ ⟨h, fun _ => rfl⟩ fun acc hacc b hb =>
      ⟨hacc.1.foldInto fun {t v} ht hv => ?_, fun c => ?_⟩).1
  swap
  · exact (targetType?_congr (form?_foldInto value acc.2 b) c).trans (hacc.2 c)
  rw [hacc.2] at ht
  have hl := h.fitted.tidy.inputLink?_eq_some_iff.2 (mem_outputLinks.1 hb)
  rw [h.solves b, atInput_of_inputLink? hl, hs, ht, hout, carry_of_convertConstant hfloat hv]

/-! ## Inputs that nothing feeds -/

section

variable (hn : net.node? id = some node)
include hn

/-- What an input has that is found by name and that nothing feeds. -/
lemma of_not_linked
    (hsock : node.kind.socket? name = some (i, t)) (hl : net.isLinkedByName id name = false) :
    ∃ input, node.input? name = some input ∧ input.value.fits t = true ∧
      M (id, i) = (if t = .closure then .closure 0 else .data input.value) := by
  obtain ⟨j, hidx, hsock⟩ := bind_eq_some_iff.1 hsock
  obtain ⟨old, hold, hpair⟩ := map_eq_some_iff.1 hsock
  obtain ⟨rfl, rfl⟩ := Prod.mk.inj hpair
  have hk : node.kind.isScript = false := by
    cases hkind : node.kind with
    | script source =>
      rw [hkind] at hold
      simp [NodeKind.inputs] at hold
    | _ => rfl
  have hstd := (h.fitted.nodes hn).standard hk
  rw [← hstd.inputIndex?] at hidx
  have hshape := hstd.shape_getElem? j
  rw [hold, map_some] at hshape
  obtain ⟨input, hin, hsame⟩ := map_eq_some_iff.1 hshape
  have hty : input.ty = old.ty := congrArg (fun s => s.2.1) hsame
  have hnone : net.inputLink? id j = none := by
    rw [isLinkedByName, isSome_eq_false_iff, isNone_iff_eq_none, inputLinkByName?, hn] at hl
    simpa [hidx] using hl
  refine ⟨input, (input?_eq_getElem? hidx).trans hin,
    hty ▸ hstd.fits input (List.mem_of_getElem? hin), ?_⟩
  rw [h.solves (id, j), atInput_of_none hnone, input?, hn, bind_some, hin, elim_some,
    Input.meaning, hty]

lemma float_eq (hsock : node.kind.socket? name = some (i, .float))
    (hl : net.isLinkedByName id name = false) : M (id, i) = .data (.float (node.float name)) := by
  obtain ⟨input, hin, hfits, hM⟩ := h.of_not_linked hn hsock hl
  rw [hM, if_neg (by decide), float, hin, bind_some]
  cases hv : input.value with
  | float x => rfl
  | _ =>
    rw [hv] at hfits
    cases hfits

lemma vec3_eq (hsock : node.kind.socket? name = some (i, .color))
    (hl : net.isLinkedByName id name = false) : M (id, i) = .data (.vec3 (node.vec3 name)) := by
  obtain ⟨input, hin, hfits, hM⟩ := h.of_not_linked hn hsock hl
  rw [hM, if_neg (by decide), vec3, hin, bind_some]
  cases hv : input.value with
  | vec3 x => rfl
  | _ =>
    rw [hv] at hfits
    cases hfits

/-! ## What folding knows of a node -/

/-- A node that folds to a constant gives it. -/
lemma atOutput_of_constant (hf : net.foldOf id node = .constant value) :
    ∃ s, net.sourceType? (id, 0) = some s ∧ (∀ x, value = .float x → s = .float) ∧
      net.atOutput I M (id, 0) = .data value := by
  unfold foldOf at hf
  dsimp only at hf
  split at hf
  · rename_i v hk
    have hform := h.form?_eq hn hk rfl
    cases hf
    refine ⟨.float, by rw [sourceType?, hform]; rfl, fun _ _ => rfl, ?_⟩
    rw [atOutput_of_form? hform]
    rfl
  · rename_i color hk
    have hform := h.form?_eq hn hk rfl
    cases hf
    refine ⟨.color, by rw [sourceType?, hform]; rfl, fun _ e => SocketValue.noConfusion e, ?_⟩
    rw [atOutput_of_form? hform]
    rfl
  · rename_i op useClamp hk
    have hform := h.form?_eq hn hk rfl
    split at hf
    · cases hf
    · rename_i hl
      cases hf
      rw [Bool.or_eq_true, not_or, Bool.not_eq_true, Bool.not_eq_true] at hl
      have h1 := h.float_eq hn (by rw [hk]; rfl) hl.1
      have h2 := h.float_eq hn (by rw [hk]; rfl) hl.2
      refine ⟨.float, by rw [sourceType?, hform]; rfl, fun _ _ => rfl, ?_⟩
      have hins : (List.range (ofKind (.math op useClamp)).form.inputs.length).map
          (fun i => M (id, i)) = [M (id, 0), M (id, 1)] := rfl
      rw [atOutput_of_form? hform, hins, h1, h2]
      rfl
  · split at hf <;> cases hf
  · split at hf <;> cases hf
  · repeat' split at hf
    all_goals cases hf
  · cases hf

/-- Light that nothing feeds and that is black or off gives the empty sum. -/
lemma atOutput_of_dark (hk : node.kind = .emission ∨ node.kind = .background)
    (hdark : (!net.isLinkedByName id "Color" && (node.vec3 "Color").isZero ||
      !net.isLinkedByName id "Strength" && node.float "Strength" == 0) = true) (o : Nat) :
    net.atOutput I M (id, o) = .closure 0 := by
  have hcolor : node.kind.socket? "Color" = some (0, .color) := by
    obtain hk | hk := hk <;> rw [hk] <;> rfl
  have hstrength : node.kind.socket? "Strength" = some (1, .float) := by
    obtain hk | hk := hk <;> rw [hk] <;> rfl
  have hlit : ((M (id, 0)).isBlack || (M (id, 1)).isOff) = true := by
    simp only [Bool.or_eq_true, Bool.and_eq_true, Bool.not_eq_true'] at hdark ⊢
    refine hdark.imp (fun hc => ?_) fun hc => ?_
    · rw [h.vec3_eq hn hcolor hc.1]
      exact hc.2
    · rw [h.float_eq hn hstrength hc.1]
      exact hc.2
  obtain hk | hk := hk
  all_goals
    rw [atOutput_of_form? (h.form?_eq hn hk rfl)]
    exact if_pos hlit

/-- A node that folding discards gives the empty sum, as closures only. -/
lemma atOutput_of_discard (hf : net.foldOf id node = .discard) :
    node.kind.handlesClosures = true ∧ ∀ o, net.atOutput I M (id, o) = .closure 0 := by
  unfold foldOf at hf
  dsimp only at hf
  split at hf
  · cases hf
  · cases hf
  · split at hf <;> cases hf
  · rename_i hk
    split at hf
    · exact ⟨by rw [hk]; rfl, h.atOutput_of_dark hn (.inl hk) ‹_›⟩
    · cases hf
  · rename_i hk
    split at hf
    · exact ⟨by rw [hk]; rfl, h.atOutput_of_dark hn (.inr hk) ‹_›⟩
    · cases hf
  · repeat' split at hf
    all_goals cases hf
  · cases hf

/-- A mix that folding goes around gives what one of its inputs has. -/
lemma atOutput_of_bypass (hf : net.foldOf id node = .bypass input) :
    net.atOutput I M (id, 0) = .closure (M (id, input)).sum := by
  obtain ⟨hk, _⟩ := foldOf_eq_bypass hf
  have hfac : net.isLinkedByName id "Fac" = false := by
    by_contra hl
    rw [Bool.not_eq_false] at hl
    simp [foldOf, hk, hl] at hf
  have hx := h.float_eq hn (by rw [hk]; rfl) hfac
  have hins : (List.range (ofKind .mixClosure).form.inputs.length).map
      (fun i => M (id, i)) = [M (id, 0), M (id, 1), M (id, 2)] := rfl
  rw [atOutput_of_form? (h.form?_eq hn hk rfl), hins, hx]
  change Meaning.closure _ = _
  simp only [foldOf, hk, hfac, Bool.false_eq_true, if_false] at hf
  split at hf
  · rename_i hzero
    cases hf
    rw [I.weight_zero hzero, sub_zero, one_smul, zero_smul, add_zero]
  split at hf
  · rename_i hone
    cases hf
    rw [I.weight_one hone, sub_self, zero_smul, one_smul, zero_add]
  · cases hf

end

/-! ## Links that go -/

lemma targetType?_eq_closure (hn : net.node? id = some node)
    (hk : node.kind.handlesClosures = true) {o : Nat} (hb : net.Feeds (id, o) b) :
    net.targetType? b = some .closure := by
  obtain ⟨s, t, hs, ht, hst⟩ := h.fitted.fit hb
  have hscript : node.kind.isScript = false := by
    cases hkind : node.kind with
    | script source =>
      rw [hkind] at hk
      cases hk
    | _ => rfl
  rw [sourceType?, h.form?_eq hn rfl hscript, bind_some] at hs
  obtain ⟨out, hout, rfl⟩ := map_eq_some_iff.1 hs
  rw [NodeKind.ty_eq_closure_of_mem_outputs hk (List.mem_of_getElem? hout),
    SocketType.linksTo_closure] at hst
  rw [ht, hst]

/-- Cutting off a node whose closures are empty. -/
lemma removeOutgoing (hn : net.node? id = some node) (hk : node.kind.handlesClosures = true)
    (hempty : ∀ {o b}, net.Feeds (id, o) b → M b = .closure 0) :
    Modelled I M rank (net.removeOutgoing id) := by
  obtain ⟨_, hnode, _⟩ := h.fitted.tidy.removeOutgoing_spec id
  have hform : ∀ n, (net.removeOutgoing id).form? n = net.form? n := fun n => form?_congr (hnode n)
  refine ⟨Wired.removeOutgoing h.fitted id, h.solves.of_form? hform fun b => ?_⟩
  have hlink := h.fitted.tidy.inputLink?_removeOutgoing id b
  by_cases hid : ∃ o, net.Feeds (id, o) b
  · right
    rw [if_pos hid] at hlink
    obtain ⟨o, hb⟩ := hid
    have hty := (targetType?_congr hform b).trans (h.targetType?_eq_closure hn hk hb)
    rw [atInput_of_closure hlink hty, hempty hb]
  · rw [if_neg hid] at hlink
    exact .inl ⟨hlink, by rw [input?, hnode, input?]⟩

/-- What arrives where closures lead to. -/
lemma eq_sum_of_feeds (ht : net.targetType? b = some .closure)
    (hab : net.Feeds a b) : M b = .closure (net.atOutput I M a).sum := by
  rw [h.solves b, atInput_of_inputLink? (h.fitted.tidy.inputLink?_eq_some_iff.2 hab), ht,
    Meaning.carry_closure]

/-- Going around a mix that gives what one of its inputs has. -/
lemma bypass (hn : net.node? id = some node)
    (hf : net.foldOf id node = .bypass input) : Modelled I M rank (net.bypass id input).1 := by
  obtain ⟨hk, hi⟩ := foldOf_eq_bypass hf
  have hclosures : node.kind.handlesClosures = true := by rw [hk]; rfl
  have hself : net.form? id = some (ofKind .mixClosure).form := h.form?_eq hn hk rfl
  have hin : net.targetType? (id, input) = some .closure := by
    rw [targetType?, hself]
    obtain rfl | rfl := hi <;> rfl
  -- A mix has one output, and what it leads to has what the input of the mix has.
  have hpass : ∀ {o b}, net.Feeds (id, o) b → o = 0 ∧ M b = .closure (M (id, input)).sum := by
    intro o b hb
    obtain ⟨s, _, hs, _⟩ := h.fitted.fit hb
    rw [sourceType?, hself, bind_some] at hs
    obtain ⟨out, hout, _⟩ := map_eq_some_iff.1 hs
    have hzero : o = 0 := Nat.lt_one_iff.1 (List.getElem?_eq_some_iff.1 hout).1
    subst hzero
    rw [h.eq_sum_of_feeds (h.targetType?_eq_closure hn hclosures hb) hb, h.atOutput_of_bypass hn hf]
    exact ⟨rfl, rfl⟩
  unfold Network.bypass
  cases hl : net.inputLink? id input with
  | none =>
    refine h.removeOutgoing hn hclosures fun hb => ?_
    rw [(hpass hb).2, h.solves (id, input), atInput_of_closure hl hin]
    rfl
  | some source =>
    have hsource := feeds_of_inputLink? hl
    obtain ⟨_, hnode, _⟩ := h.fitted.tidy.removeOutgoing_spec id
    have hform : ∀ n, (net.removeOutgoing id).form? n = net.form? n :=
      fun n => form?_congr (hnode n)
    have hjoin : ∀ c ∈ net.outputLinks id 0,
        (net.removeOutgoing id).FitsBelow rank source c := by
      intro c hc
      have hfeed := mem_outputLinks.1 hc
      obtain ⟨s, t, hs, ht, hst⟩ := h.fitted.fit hsource
      rw [hin] at ht
      cases ht
      have hfit : net.Fit source c :=
        ⟨s, .closure, hs, h.targetType?_eq_closure hn hclosures hfeed, hst⟩
      have hup : rank source.1 < rank id := h.fitted.ranked hsource
      exact ⟨hfit.congr (hform _) (hform _), hup.trans (h.fitted.ranked hfeed)⟩
    obtain ⟨hfitted, hnodes, hlink⟩ := Fitted.foldl_link (Wired.removeOutgoing h.fitted id) hjoin
    have hsame := fun n => (hnodes n).trans (hnode n)
    refine ⟨hfitted, h.solves.of_form? (fun n => form?_congr (hsame n)) fun b => ?_⟩
    have hb := hlink b
    by_cases hid : net.Feeds (id, 0) b
    · right
      rw [if_pos (mem_outputLinks.2 hid)] at hb
      have hty := (targetType?_congr (fun n => form?_congr (hsame n)) b).trans
        (h.targetType?_eq_closure hn hclosures hid)
      rw [atInput_of_inputLink? hb, hty, Meaning.carry_closure, (hpass hid).2,
        h.eq_sum_of_feeds hin hsource]
      simp only [atOutput, form?_congr (hsame _)]
      rfl
    · left
      rw [if_neg (fun hm => hid (mem_outputLinks.1 hm)),
        h.fitted.tidy.inputLink?_removeOutgoing id b, if_neg ?_] at hb
      · exact ⟨hb, by rw [input?, hsame, input?]⟩
      · rintro ⟨o, ho⟩
        exact hid ((hpass ho).1 ▸ ho)

/-! ## Rounds -/

lemma foldNode (id : NodeId) :
    Modelled I M rank (net.foldNode id).1 := by
  unfold Network.foldNode
  cases hn : net.node? id with
  | none => exact h
  | some node =>
    dsimp only
    cases hf : net.foldOf id node with
    | keep => exact h
    | constant value =>
      obtain ⟨s, hs, hfloat, hout⟩ := h.atOutput_of_constant hn hf
      exact h.propagateConstant hs hfloat hout
    | discard =>
      obtain ⟨hk, hout⟩ := h.atOutput_of_discard hn hf
      refine h.removeOutgoing hn hk fun hb => ?_
      rw [h.eq_sum_of_feeds (h.targetType?_eq_closure hn hk hb) hb, hout]
      rfl
    | bypass input => exact h.bypass hn hf

lemma foldConstants : Modelled I M rank net.foldConstants :=
  foldRounds_induction (fun _ id hcur => hcur.foldNode id) _ h

end Modelled

end Network

/-! ## Graphs -/

namespace Graph

variable {g g' : Graph} {x : Float32}

/-- Whatever the nodes mean that folding leaves alone, all inputs of all nodes have the same before
and after folding, the four inputs of the output among them.  What they have is in both cases the
only thing that agrees with the links. -/
theorem meaning_foldConstants {cs : List Change} (h : ∀ c ∈ cs, c.IsEdit ∧ c.IsStandard)
    (I : Interpretation R A) :
    (∀ M, (new.changes cs).net.Solves I M ↔ M = (new.changes cs).net.meaning I) ∧
      (∀ M, (new.changes cs).net.foldConstants.Solves I M ↔
        M = (new.changes cs).net.foldConstants.meaning I) ∧
      ∀ b, (new.changes cs).net.foldConstants.meaning I b = (new.changes cs).net.meaning I b := by
  have hf : (new.changes cs).Fitted Network.Equipped := by
    refine fitted_changes (fun c hc => (h c hc).1) fun node hn => ⟨(h _ hn).1, fun hk => ?_⟩
    cases hk.symm.trans (show node.kind.isScript = true from (h _ hn).2)
  obtain ⟨rank, hr⟩ := hf.net
  have hfold := (Network.Modelled.mk (I := I) hr hr.solves_meaning).foldConstants
  refine ⟨fun M => hr.solves_iff, fun M => hfold.fitted.solves_iff, fun b => ?_⟩
  rw [← hfold.fitted.solves_iff.1 hfold.solves]

/-- The number that a factor is; factors that are infinite or undefined count as zero. -/
def factor (x : Float32) : ℚ :=
  match x.toModel.unpack with
  | .finite .positive m e _ => m * 2 ^ e
  | .finite .negative m e _ => -(m * 2 ^ e)
  | _ => 0

lemma factor_eq_zero (h : (x == 0) = true) : factor x = 0 := by
  have h : x.toModel.unpack.compare (.zero .positive) = some .eq := eq_of_beq h
  unfold factor
  cases hx : x.toModel.unpack with
  | finite s m e hm =>
    rw [hx] at h
    cases s <;> cases h
  | _ => rfl

lemma factor_eq_one (h : (x == 1) = true) : factor x = 1 := by
  have h : x.toModel.unpack.compare (.finite .positive (2 ^ 23) (-23) (by decide)) = some .eq :=
    eq_of_beq h
  unfold factor
  cases hx : x.toModel.unpack with
  | finite s m e hm =>
    rw [hx] at h
    cases s with
    | negative => cases h
    | positive =>
      have h := some.inj h
      rw [Ordering.then_eq_eq, compare_eq_iff_eq, compare_eq_iff_eq] at h
      obtain ⟨rfl, rfl⟩ := h
      norm_num
  | infinity s =>
    rw [hx] at h
    cases s <;> cases h
  | notANumber =>
    rw [hx] at h
    cases h
  | zero s =>
    rw [hx] at h
    cases h

/-- Factors are numbers, and the nodes that are left open give closures of their own. -/
noncomputable def ownClosures : Interpretation ℚ (NodeId × Nat) where
  weight := factor
  weight_zero := factor_eq_zero
  weight_one := factor_eq_one
  node id _ o _ := .closure (Finsupp.single (id, o) 1)

/-- A mix of light that is off and of the sum of that light and a script, by a factor that
arithmetic makes one. -/
def dimmed : List Change :=
  [.add (.value 0.5), .add (.math .add true), .add .mixClosure, .add .emission,
    .addNode ⟨.script (.file "a.oso"), [.float "In" 0], [⟨"Out", .closure⟩]⟩, .add .addClosure,
    .connect 1 "Value" 2 "Value1", .connect 2 "Value" 3 "Fac", .connect 1 "Value" 5 "In",
    .setInput 4 "Strength" (.float 0), .connect 4 "Emission" 6 "Closure1",
    .connect 5 "Out" 6 "Closure2", .connect 4 "Emission" 3 "Closure1",
    .connect 6 "Closure" 3 "Closure2", .connect 3 "Closure" 0 "Surface"]

/-- Five of the eight links are folded away, and the same arrives at the surface. -/
theorem dimmed_meaning : (∀ c ∈ dimmed, c.IsEdit ∧ c.IsStandard) ∧
    (new.changes dimmed).net.linkCount = 8 ∧
    (new.changes dimmed).net.foldConstants.linkCount = 3 ∧
    (new.changes dimmed).net.foldConstants.meaning ownClosures (0, 0) =
      (new.changes dimmed).net.meaning ownClosures (0, 0) := by
  have h : ∀ c ∈ dimmed, c.IsEdit ∧ c.IsStandard := by
    simp only [dimmed, List.forall_mem_cons, Change.IsEdit, Change.IsStandard, and_self, true_and]
    exact ⟨⟨⟨by decide, by decide⟩, rfl⟩, List.forall_mem_nil _⟩
  obtain ⟨_, _, heq⟩ := meaning_foldConstants h ownClosures
  exact ⟨h, by decide +kernel, by decide +kernel, heq (0, 0)⟩

end Graph

end Shading
