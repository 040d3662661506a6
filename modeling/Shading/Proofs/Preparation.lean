import Shading.Proofs.ClosureWeight
import Shading.Bytecode.Compile

/-!
# Graphs that edits and preparation can reach

Edits check names, types and cycles; preparation folds, prunes and adds nodes.  Both keep networks
valid, so every graph that can be reached is sound: its network, and the one it remembers from
before the last preparation, are valid and have their output node.  A network remembered from
before matters because preparation with other options starts again from it, and because removing a
link keeps what was remembered.

For graphs that were never prepared and whose edits name no weight input, preparation gives every
closure the weight that `Shading.Proofs.ClosureWeight` computes: the sum over its paths.
-/

namespace Shading

open Network

variable {b : NodeId × Nat} {volume : Bool} {name : String}

namespace Graph

/-! ## Edits -/

/-- An edit that succeeded, of inputs whose names are allowed. -/
inductive Edit (allowed : String → Prop) (g : Graph) : Graph → Prop
  | add (kind : NodeKind) : Edit allowed g (g.add kind).2
  | setInput {id : NodeId} {name : String} {value : SocketValue} {g' : Graph} (ha : allowed name)
      (h : g.setInput id name value = .ok g') : Edit allowed g g'
  | connect {source : NodeId} {output : String} {target : NodeId} {input : String} {g' : Graph}
      (ha : allowed input) (h : g.connect source output target input = .ok g') : Edit allowed g g'
  | disconnect {target : NodeId} {input : String} {removed : Bool} {g' : Graph} (ha : allowed input)
      (h : g.disconnect target input = .ok (removed, g')) : Edit allowed g g'

/-- A graph that only edits have made. -/
inductive Drawn (allowed : String → Prop) : Graph → Prop
  | new : Drawn allowed .new
  | edit {g g' : Graph} (hg : Drawn allowed g) (h : Edit allowed g g') : Drawn allowed g'

/-- A graph that edits and preparations have made. -/
inductive Reached : Graph → Prop
  | new : Reached .new
  | edit {g g' : Graph} (hg : Reached g) (h : Edit (fun _ => True) g g') : Reached g'
  | finalize {g : Graph} (hg : Reached g) (options : FinalizeOptions) :
      Reached (g.finalize options)

end Graph

namespace Network

variable {net net' : Network} {allowed : String → Prop}

/-- An input has an allowed name. -/
def Named (allowed : String → Prop) (net : Network) (b : NodeId × Nat) : Prop :=
  ∃ node name, net.node? b.1 = some node ∧ node.inputIndex? name = some b.2 ∧ allowed name

/-- What an edit can do to a network. -/
inductive Edited (allowed : String → Prop) (net : Network) : Network → Prop
  | add (kind : NodeKind) : Edited allowed net (net.addNode (.ofKind kind)).2
  | set {id : NodeId} {i : Nat} {value : SocketValue} (hn : net.Named allowed (id, i))
      (hv : ∀ t, net.inputType? (id, i) = some t → value.fits t = true) :
      Edited allowed net (net.setValue id i value)
  | link {source : NodeId × Nat} {target : NodeId} {i : Nat} (hn : net.Named allowed (target, i))
      (hj : net.Joins source (target, i)) (hp : net.hasPath target source.1 = false) :
      Edited allowed net (net.link source target i)
  | unlink {target : NodeId} {i : Nat} (hn : net.Named allowed (target, i)) :
      Edited allowed net (net.unlink target i)

lemma Edited.valid (h : net.Valid) (e : Edited allowed net net') : net'.Valid := by
  cases e with
  | add kind =>
    obtain ⟨rank, h⟩ := h
    exact ⟨rank, h.addNode kind⟩
  | set _ hv =>
    obtain ⟨rank, h⟩ := h
    exact ⟨rank, h.setValue hv⟩
  | link _ hj hp => exact h.link_of_hasPath hj hp
  | unlink _ => exact h.unlink _ _

lemma Edited.kind? (h : net.Valid) (e : Edited allowed net net') {n : NodeId}
    {k : NodeKind} (hk : net.kind? n = some k) : net'.kind? n = some k := by
  cases e with
  | add kind => exact h.kind?_addNode_of_some kind hk
  | set _ _ => rwa [kind?_setValue]
  | link _ _ _ => rwa [kind?_link]
  | unlink _ => rwa [kind?_unlink]

end Network

namespace Graph

variable {g g' : Graph} {allowed : String → Prop}

lemma setInput_eq_ok {id : NodeId} {value : SocketValue} (h : g.setInput id name value = .ok g') :
    ∃ node i input, g.net.node? id = some node ∧ node.inputIndex? name = some i ∧
      node.inputs[i]? = some input ∧ value.fits input.ty = true ∧
        g' = g.edit (g.net.setValue id i value) := by
  obtain ⟨node, hr, h⟩ := exists_of_bind_eq_ok h
  split at h
  · rename_i i input hidx hinput
    rw [Node.input?_eq_getElem? hidx] at hinput
    split at h
    · rename_i hfits
      cases h
      exact ⟨node, i, input, require_eq_ok_iff.1 hr, hidx, hinput, hfits, rfl⟩
    · cases h
  · cases h

lemma connect_eq_ok {source target : NodeId} {output input : String}
    (h : g.connect source output target input = .ok g') :
    ∃ o s i t, g.requireOutput source output = .ok (o, s) ∧ g.requireInput target input = .ok (i, t) ∧
      s.linksTo t = true ∧ g.net.hasPath target source = false ∧
        g' = g.edit (g.net.link (source, o) target i) := by
  obtain ⟨⟨o, s⟩, ho, h⟩ := exists_of_bind_eq_ok h
  obtain ⟨⟨i, t⟩, hi, h⟩ := exists_of_bind_eq_ok h
  dsimp only at h
  split at h
  · cases h
  split at h
  · cases h
  rename_i hlinks hpath
  cases h
  exact ⟨o, s, i, t, ho, hi, by simpa using hlinks, by simpa using hpath, rfl⟩

lemma disconnect_eq_ok {n : NodeId} {removed : Bool} (h : g.disconnect n name = .ok (removed, g')) :
    ∃ node i, g.net.node? n = some node ∧ node.inputIndex? name = some i ∧
      g' = { g with net := g.net.unlink n i } := by
  obtain ⟨⟨i, t⟩, hi, h⟩ := exists_of_bind_eq_ok h
  obtain ⟨node, hn, hidx, _⟩ := requireInput_eq_ok hi
  cases h
  exact ⟨node, i, hn, hidx, rfl⟩

/-- What an edit does to the network; an edit forgets earlier preparations, or keeps them if it
removes a link. -/
lemma Edit.edited (hv : g.net.Valid) (h : Edit allowed g g') :
    g.net.Edited allowed g'.net ∧ g'.output = g.output ∧
      (g'.finalized = none ∧ g'.unfinalized = none ∨
        g'.finalized = g.finalized ∧ g'.unfinalized = g.unfinalized ∧
          ∃ n name removed, g.disconnect n name = .ok (removed, g')) := by
  cases h with
  | add kind => exact ⟨.add kind, rfl, .inl ⟨rfl, rfl⟩⟩
  | @setInput id name value g' ha h =>
    obtain ⟨node, i, input, hn, hidx, hinput, hfits, rfl⟩ := setInput_eq_ok h
    refine ⟨.set ⟨node, name, hn, hidx, ha⟩ fun t ht => ?_, rfl, .inl ⟨rfl, rfl⟩⟩
    rw [hv.inputType?_eq hn, hinput, Option.map_some] at ht
    cases ht
    exact hfits
  | @connect source output target input g' ha h =>
    obtain ⟨o, s, i, t, ho, hi, hlinks, hpath, rfl⟩ := connect_eq_ok h
    obtain ⟨node, hn, hidx, ht⟩ := requireInput_eq_ok hi
    obtain ⟨node', hn', _, hs⟩ := requireOutput_eq_ok ho
    rw [← hv.inputType?_eq hn] at ht
    rw [← hv.outputType?_eq hn'] at hs
    exact ⟨.link ⟨node, input, hn, hidx, ha⟩ ⟨s, t, hs, ht, hlinks⟩ hpath, rfl, .inl ⟨rfl, rfl⟩⟩
  | @disconnect target input removed g' ha h =>
    obtain ⟨node, i, hn, hidx, rfl⟩ := disconnect_eq_ok h
    exact ⟨.unlink ⟨node, input, hn, hidx, ha⟩, rfl, .inr ⟨rfl, rfl, target, input, removed, h⟩⟩

end Graph

namespace Network

variable {net net' base : Network} {allowed : String → Prop} {output : NodeId}

/-! ## Networks without weights -/

/-- No weight has been given yet: weight inputs are unlinked and hold zero. -/
def Blank (net : Network) : Prop :=
  ∀ b, net.AnyWeight b → net.inputLink? b.1 b.2 = none ∧
    (net.input? b.1 b.2).map Input.value = some (.float 0)

lemma Blank.of_frame (h : net.Blank) (hf : ∀ b, net'.AnyWeight b → net.AnyWeight b ∧
      (net.inputLink? b.1 b.2 = none → net'.inputLink? b.1 b.2 = none ∧
        net'.input? b.1 b.2 = net.input? b.1 b.2)) : net'.Blank := by
  intro b hb
  obtain ⟨hb', hf⟩ := hf b hb
  obtain ⟨hl, hi⟩ := hf (h b hb').1
  exact ⟨hl, hi ▸ (h b hb').2⟩

lemma AnyWeight.congr (hk : net'.kind? b.1 = net.kind? b.1) :
    net'.AnyWeight b ↔ net.AnyWeight b := by
  simp only [AnyWeight, IsWeight, hk]

/-- A weight input goes by no other name. -/
lemma AnyWeight.not_named (hv : net.Valid) (hw : ∀ name, allowed name →
    name ≠ surfaceWeight ∧ name ≠ volumeWeight) (hb : net.AnyWeight b) :
    ¬ net.Named allowed b := by
  rintro ⟨node, name, hn, hidx, ha⟩
  obtain ⟨volume, k, hk, hi⟩ := hb
  rw [kind?_of_node? hn] at hk
  cases hk
  rw [(hv.standard hn).inputIndex?, Node.inputIndex?, List.findIdx?_eq_some_iff_getElem] at hidx
  obtain ⟨hlt, hname, _⟩ := hidx
  have hinput : (Node.ofKind node.kind).inputs[b.2]? = _ := (weightIndex?_ofKind hi).2
  rw [List.getElem?_eq_getElem hlt] at hinput
  rw [Option.some.inj hinput] at hname
  have heq := eq_of_beq hname
  cases volume with
  | false => exact (hw name ha).1 heq.symm
  | true => exact (hw name ha).2 heq.symm

lemma Blank.edited (hv : net.Valid) (h : net.Blank)
    (hw : ∀ name, allowed name → name ≠ surfaceWeight ∧ name ≠ volumeWeight)
    (e : Edited allowed net net') : net'.Blank := by
  cases e with
  | add kind =>
    rcases hadd : net.addNode (.ofKind kind) with ⟨x, new⟩
    obtain ⟨_, _, hkx, hnode, hlink, hinput, hlinkx, _⟩ := hv.addNode_spec kind hadd
    intro b hb
    by_cases e : b.1 = x
    · obtain ⟨volume, k, hk, hi⟩ := hb
      rw [e] at hk ⊢
      rw [hkx] at hk
      cases hk
      refine ⟨hlinkx _, ?_⟩
      rw [hinput, (weightIndex?_ofKind hi).2]
      rfl
    · rw [AnyWeight.congr (kind?_congr (hnode _ e))] at hb
      rw [hlink, input?, hnode _ e, ← input?]
      exact h b hb
  | @set id i value hn _ =>
    refine h.of_frame fun b hb => ?_
    rw [AnyWeight.congr (kind?_setValue ..)] at hb
    refine ⟨hb, fun hl => ⟨hl, ?_⟩⟩
    have hne : b ≠ (id, i) := fun e => hb.not_named hv hw (e ▸ hn)
    by_cases e : b.1 = id
    · rw [e, input?_setValue, if_neg fun e' => hne (Prod.ext e e')]
    · rw [input?, node?_setValue, if_neg e, input?]
  | @link source target i hn hj _ =>
    refine h.of_frame fun b hb => ?_
    rw [AnyWeight.congr (kind?_link ..)] at hb
    refine ⟨hb, fun hl => ⟨?_, by rw [input?, node?_link, input?]⟩⟩
    have hne : b ≠ (target, i) := fun e => hb.not_named hv hw (e ▸ hn)
    exact (hv.inputLink?_link hj b.1 b.2).trans ((if_neg hne).trans hl)
  | @unlink target i hn =>
    refine h.of_frame fun b hb => ?_
    rw [AnyWeight.congr (kind?_unlink ..)] at hb
    refine ⟨hb, fun hl => ⟨?_, by rw [input?, node?_unlink, input?]⟩⟩
    rw [hv.tidy.inputLink?_unlink]
    split
    · rfl
    · exact hl

/-! ## Preparation -/

/-- What folding and pruning leave of a network, before anything is added to it. -/
def pruned (net : Network) (output : NodeId) : Network := net.foldConstants.removeUnreachable output

/-- The network before weights are given. -/
def unweighed (net : Network) (output : NodeId) (options : FinalizeOptions) : Network :=
  if options.doBump then (net.pruned output).bumpFromDisplacement output options.bumpInObjectSpace
  else net.pruned output

lemma finalize_eq (net : Network) (output : NodeId) (options : FinalizeOptions) :
    net.finalize output options =
      ((net.unweighed output options).distributeFrom output "Surface" false).distributeFrom output
        "Volume" true := rfl

/-- Surface and volume weights are different inputs. -/
lemma IsWeight.other (h : net.IsWeight volume b) : ¬ net.IsWeight (!volume) b := by
  rintro ⟨k', hk', hi'⟩
  obtain ⟨k, hk, hi⟩ := h
  rw [hk] at hk'
  cases hk'
  have e := (weightIndex?_ofKind hi).2.symm.trans (weightIndex?_ofKind hi').2
  have e := congrArg Input.name (Option.some.inj e)
  revert e
  cases volume <;> decide

section

variable (hv : net.Valid) (ho : net.kind? output = some .output)
include hv ho

/-- Folding and pruning keep the kinds of nodes, and change no input that was unlinked. -/
lemma Valid.pruned_spec :
    (net.pruned output).Valid ∧ (net.pruned output).kind? output = some .output ∧
      (∀ {n k}, (net.pruned output).kind? n = some k → net.kind? n = some k) ∧
      (∀ {n i}, net.inputLink? n i = none → (net.pruned output).inputLink? n i = none) ∧
      ∀ {n k i}, (net.pruned output).kind? n = some k → net.inputLink? n i = none →
        (net.pruned output).input? n i = net.input? n i := by
  obtain ⟨rank, hr⟩ := hv
  have hQ : ∀ {a b}, net.Feeds a b → ∃ a, net.Feeds a b := fun hab => ⟨_, hab⟩
  have t := foldConstants_trim hr hQ
  have hfold := t.validBy hr
  obtain ⟨hprune, hnode, hf⟩ := hfold.removeUnreachable_spec output
  refine ⟨⟨rank, hprune⟩, ?_, fun {n k} hk => ?_, fun {n i} hl => ?_, fun {n k i} hk hl => ?_⟩
  · have hk := (t.kind? hr output).trans ho
    obtain ⟨node, hn, _⟩ := kind?_eq_some_iff.1 hk
    rw [pruned, kind?, hnode, if_pos (mem_kept_output hn), ← kind?, hk]
  · rw [← t.kind? hr]
    obtain ⟨node, hn, hkind⟩ := kind?_eq_some_iff.1 hk
    rw [pruned, hnode] at hn
    split at hn
    · exact hkind ▸ kind?_of_node? hn
    · cases hn
  · rw [pruned, hprune.tidy.inputLink?_eq_none_iff]
    intro a ha
    obtain ⟨a', ha'⟩ := t.linked hr hQ ((hf a (n, i)).1 ha).1
    exact hr.tidy.inputLink?_eq_none_iff.1 hl a' ha'
  · obtain ⟨node, hn, _⟩ := kind?_eq_some_iff.1 hk
    have hsame : (net.pruned output).node? n = _ := hnode n
    rw [hn] at hsame
    split at hsame
    · obtain ⟨old, hold, hinputs⟩ := t.node? hr hsame.symm
      rw [input?, hn, input?, hold, Option.bind_some, Option.bind_some, hinputs i]
      rintro ⟨a, ha⟩
      exact hr.tidy.inputLink?_eq_none_iff.1 hl a ha
    · cases hsame

/-- Deriving a normal changes no weights either. -/
lemma Valid.unweighed_spec (options : FinalizeOptions) : (net.unweighed output options).Valid ∧
      (net.unweighed output options).kind? output = some .output ∧
      (∀ b, (net.unweighed output options).AnyWeight b → net.AnyWeight b ∧
        (net.inputLink? b.1 b.2 = none → (net.unweighed output options).inputLink? b.1 b.2 = none ∧
          (net.unweighed output options).input? b.1 b.2 = net.input? b.1 b.2)) ∧
      Weighed (· = (output, normalIndex)) (net.pruned output) (net.unweighed output options) := by
  obtain ⟨hvp, hop, hkind, hlink, hinput⟩ := hv.pruned_spec ho
  have hp : ∀ b, (net.pruned output).AnyWeight b → net.AnyWeight b ∧
      (net.inputLink? b.1 b.2 = none → (net.pruned output).inputLink? b.1 b.2 = none ∧
        (net.pruned output).input? b.1 b.2 = net.input? b.1 b.2) := by
    rintro b ⟨volume, k, hk, hi⟩
    exact ⟨⟨volume, k, hkind hk, hi⟩, fun hl => ⟨hlink hl, hinput hk hl⟩⟩
  unfold unweighed
  split
  · obtain ⟨hv', hf, hnew⟩ := hvp.bumpFromDisplacement_spec hop options.bumpInObjectSpace
    refine ⟨hv', hf.kind? hop, ?_, hf⟩
    rintro b ⟨volume, k, hk, hi⟩
    obtain hk' | rfl := hnew hk
    · have hb : (net.pruned output).AnyWeight b := ⟨volume, k, hk', hi⟩
      obtain ⟨node, hn, _⟩ := kind?_eq_some_iff.1 hk'
      have hne : ¬ (b.1, b.2) = (output, normalIndex) := fun e =>
        not_anyWeight hop rfl normalIndex (e ▸ hb)
      obtain ⟨hb, hsame⟩ := hp b hb
      exact ⟨hb, fun hl => ⟨(hf.link hn b.2 hne).trans (hsame hl).1,
        (hf.input? hn hne).trans (hsame hl).2⟩⟩
    · cases (weightIndex?_ofKind hi).1
  · exact ⟨hvp, hop, hp, .refl⟩

/-- The terminal that surface or volume closures feed. -/
def closureTerminal (volume : Bool) : String := if volume then "Volume" else "Surface"

/-- The weights of surfaces, or of volumes, are given by one walk, before and after which other
weights change at most. -/
lemma Valid.finalize_walk (options : FinalizeOptions) (volume : Bool) :
    let base := net.unweighed output options
    (net.finalize output options).Valid ∧ ∃ start stop,
      start.Valid ∧ Weighed (base.IsWeight !volume) base start ∧
      Distributed base volume
        (fun root => ∃ o, base.inputLinkByName? output (closureTerminal volume) = some (root, o))
        (fun env => base.terminalSum env output (closureTerminal volume)) (start.nodeCount + 1) none
        start stop ∧
      Weighed (base.IsWeight !volume) stop (net.finalize output options) := by
  intro base
  obtain ⟨hbase, hbo, _, _⟩ := hv.unweighed_spec ho options
  have h₁ := distributeFrom_spec hbase hbase .refl hbo "Surface" false
  have h₂ := distributeFrom_spec hbase h₁.valid (h₁.weighed.mono fun _ h => ⟨_, h⟩) hbo "Volume" true
  refine ⟨h₂.valid, ?_⟩
  cases volume with
  | false => exact ⟨base, _, hbase, .refl, h₁, h₂.weighed⟩
  | true => exact ⟨_, _, h₁.valid, h₁.weighed, h₂, .refl⟩

/-- Preparation gives a valid network that differs from the one before in weight inputs only. -/
theorem Valid.finalize_spec (options : FinalizeOptions) : (net.finalize output options).Valid ∧
      Weighed (net.unweighed output options).AnyWeight (net.unweighed output options)
        (net.finalize output options) := by
  obtain ⟨hv', start, stop, _, hf, hd, hf'⟩ := hv.finalize_walk ho options false
  exact ⟨hv', (hf.mono fun _ h => ⟨_, h⟩).trans ((hd.weighed.mono fun _ h => ⟨_, h⟩).trans
    (hf'.mono fun _ h => ⟨_, h⟩))⟩

/-! ## Weights after preparation -/

/-- After preparation the weight input of a closure has the value that the walk from its terminal
gives it. -/
lemma Valid.value_finalize (hblank : net.Blank) (options : FinalizeOptions) (env : NodeId × Nat → ℚ)
    (hb : (net.unweighed output options).IsWeight volume b) :
    Value (net.finalize output options) env (.input b.1 b.2)
      ((net.unweighed output options).terminalSum env output (closureTerminal volume) b.1) := by
  obtain ⟨hbase, _, hbl, _⟩ := hv.unweighed_spec ho options
  obtain ⟨_, start, stop, hstart, hf, hd, hf'⟩ := hv.finalize_walk ho options volume
  set base := net.unweighed output options
  have hblank := hblank.of_frame hbl
  have hbs : Weighed base.AnyWeight base start := hf.mono fun _ h => ⟨_, h⟩
  have hplain : base.Plain volume start := by
    refine .weighed .refl hf (fun _ h => h.other) fun b hb _ => ?_
    exact ⟨0, (hblank b ⟨volume, hb⟩).2, .inl rfl⟩
  have hzero : Value start env (.input b.1 b.2) 0 := by
    obtain ⟨hl, hval⟩ := hblank b ⟨volume, hb⟩
    obtain ⟨hlink, hinput⟩ := Weighed.refl.weight_eq hf hb hb.other
    exact exactValue_zero ▸ .held (hlink.trans hl) (hinput ▸ hval)
  have hfar : ∀ root p x,
      (∃ o, base.inputLinkByName? output (closureTerminal volume) = some (root, o)) →
        base.ClosurePath root p x → p.length < start.nodeCount + 1 := by
    rintro root p x ⟨o, hl⟩ hpath
    obtain ⟨k, hk⟩ := hbase.kind?_of_inputLinkByName? hl
    exact Nat.lt_succ_of_le (hstart.length_path_le
      ((hbs.closurePath_iff hbase not_anyWeight hk).2 hpath))
  have hval := hd.value hfar hplain env 1 rfl b hb 0 hzero
  rw [zero_add, one_mul] at hval
  refine hval.weighed hf' (hbs.trans (hd.weighed.mono fun _ h => ⟨_, h⟩)).not_isWeight
    hd.valid.exists_kind? fun id i e => ?_
  cases e
  exact hb.other

/-- The value in terms of the prepared network alone. -/
lemma Valid.value_finalize_iff (hblank : net.Blank) (options : FinalizeOptions)
    (env : NodeId × Nat → ℚ) {root leaf : NodeId} {o i : Nat} {p : List (NodeId × Side)}
    {node : Node} (hroot :
      (net.finalize output options).inputLinkByName? output (closureTerminal volume) = some (root, o))
    (hp : (net.finalize output options).ClosurePath root p leaf)
    (hleaf : (net.finalize output options).node? leaf = some node)
    (hi : node.weightIndex? volume = some i) (q : ℚ) :
    Value (net.finalize output options) env (.input leaf i) q ↔
      q = (net.finalize output options).pathSum env root leaf := by
  obtain ⟨hv', hf⟩ := hv.finalize_spec ho options
  obtain ⟨hbase, hbo, _, _⟩ := hv.unweighed_spec ho options
  set base := net.unweighed output options
  -- The terminal, the paths and the closure were there before weights were given.
  obtain ⟨nodeO, hnO, _⟩ := kind?_eq_some_iff.1 hbo
  have hroot' : base.inputLinkByName? output (closureTerminal volume) = some (root, o) := by
    rw [← hf.inputLinkByName? hnO (not_anyWeight hbo rfl), hroot]
  obtain ⟨k, hk⟩ := hbase.kind?_of_inputLinkByName? hroot'
  have hp' := (hf.closurePath_iff hbase not_anyWeight hk).1 hp
  obtain ⟨l, hl⟩ := hp'.exists_kind? hbase hk
  have hw : base.IsWeight volume (leaf, i) := by
    have hkind := hf.kind? hl
    rw [kind?_of_node? hleaf] at hkind
    rw [Node.weightIndex?, (hv'.standard hleaf).inputIndex?, Option.some.inj hkind] at hi
    exact ⟨l, hl, hi⟩
  have hval := hv.value_finalize ho hblank options env hw
  have hsum : base.terminalSum env output (closureTerminal volume) leaf =
      (net.finalize output options).pathSum env root leaf := by
    rw [terminalSum, hroot', hf.pathSum_eq hbase not_anyWeight hk]
  rw [hsum] at hval
  exact ⟨fun hq => hq.unique hval, fun e => e ▸ hval⟩

end

end Network

namespace Graph

variable {g g' : Graph} {allowed : String → Prop}

@[simp] lemma output_finalize (g : Graph) (options : FinalizeOptions) :
    (g.finalize options).output = g.output := by
  unfold finalize
  split <;> rfl

lemma net_finalize (hf : g.finalized = none) (options : FinalizeOptions) :
    (g.finalize options).net = g.net.finalize g.output options := by
  simp [finalize, base, hf]

/-- What holds of the network and of the one from before holds of the one that is prepared. -/
lemma base_induction {P : Network → Prop} (hnet : P g.net)
    (hbefore : ∀ net, g.unfinalized = some net → P net) : P g.base := by
  unfold base
  split
  · cases hu : g.unfinalized with
    | none => exact hnet
    | some net => exact hbefore net hu
  · exact hnet

/-! ## Sound graphs -/

/-- The network, and the one from before the last preparation, are in order. -/
structure Sound (g : Graph) : Prop where
  valid : g.net.Valid
  output : g.net.kind? g.output = some .output
  before : ∀ net, g.unfinalized = some net → net.Valid ∧ net.kind? g.output = some .output

lemma sound_new : new.Sound := by
  refine ⟨?_, rfl, fun net h => by cases h⟩
  exact ⟨fun _ => 0, Wired.empty.addNode (.ofKind .output)⟩

lemma Sound.base (h : g.Sound) : g.base.Valid ∧ g.base.kind? g.output = some .output :=
  base_induction ⟨h.valid, h.output⟩ h.before

lemma Sound.edit (h : g.Sound) (e : Edit allowed g g') : g'.Sound := by
  obtain ⟨hed, hout, hrecord⟩ := e.edited h.valid
  refine ⟨hed.valid h.valid, hout ▸ hed.kind? h.valid h.output, fun net hnet => ?_⟩
  obtain ⟨_, hu⟩ | ⟨_, hu, _⟩ := hrecord
  · rw [hu] at hnet
    cases hnet
  · rw [hout]
    exact h.before net (hu ▸ hnet)

lemma Sound.finalize (h : g.Sound) (options : FinalizeOptions) : (g.finalize options).Sound := by
  unfold Graph.finalize
  split
  · exact h
  · obtain ⟨hv, ho⟩ := h.base
    obtain ⟨hv', hf⟩ := hv.finalize_spec ho options
    refine ⟨hv', hf.kind? (hv.unweighed_spec ho options).2.1, fun net hnet => ?_⟩
    cases hnet
    exact ⟨hv, ho⟩

/-- Whatever edits and preparations make of a graph, it is in order. -/
theorem Reached.sound (h : g.Reached) : g.Sound := by
  induction h with
  | new => exact sound_new
  | edit _ e ih => exact ih.edit e
  | finalize _ options ih => exact ih.finalize options

/-! ## The weight of a closure -/

/-- A name that is not a weight's. -/
def IsPlainName (name : String) : Prop := name ≠ surfaceWeight ∧ name ≠ volumeWeight

lemma Drawn.reached (h : g.Drawn allowed) : g.Reached := by
  induction h with
  | new => exact .new
  | edit _ e ih =>
    refine ih.edit ?_
    cases e with
    | add kind => exact .add kind
    | setInput _ h => exact .setInput trivial h
    | connect _ h => exact .connect trivial h
    | disconnect _ h => exact .disconnect trivial h

lemma Drawn.sound (h : g.Drawn allowed) : g.Sound := h.reached.sound

lemma Drawn.finalized_eq_none (h : g.Drawn allowed) : g.finalized = none := by
  induction h with
  | new => rfl
  | edit hg e ih =>
    obtain ⟨_, _, hrecord⟩ := e.edited hg.sound.valid
    obtain ⟨hf, _⟩ | ⟨hf, _⟩ := hrecord
    · exact hf
    · exact hf.trans ih

lemma blank_new : new.net.Blank := by
  have hv : empty.Valid := ⟨fun _ => 0, Wired.empty⟩
  have hblank : empty.Blank := by
    rintro b ⟨_, k, hk, _⟩
    cases hk
  have e : empty.Edited IsPlainName new.net := .add .output
  exact hblank.edited hv (fun _ h => h) e

lemma Drawn.blank (h : g.Drawn IsPlainName) : g.net.Blank := by
  induction h with
  | new => exact blank_new
  | edit hg e ih => exact ih.edited hg.sound.valid (fun _ h => h) (e.edited hg.sound.valid).1

/-- After preparation the weight input of every closure that feeds a terminal evaluates to the sum,
over all closure paths from the terminal to it, of the product of what the sides contribute: the
factor of a mix for its second side, one minus the factor for its first, and one for the sides of a
sum.  This holds for any values of the outputs that feed factors. -/
theorem Drawn.weight_eq_sum_paths (hg : g.Drawn IsPlainName) (options : FinalizeOptions)
    (env : NodeId × Nat → ℚ) {volume : Bool} {root leaf : NodeId} {o i : Nat}
    {p : List (NodeId × Side)} {node : Node}
    (hroot : (g.finalize options).net.inputLinkByName? g.output
      (Network.closureTerminal volume) = some (root, o))
    (hp : (g.finalize options).net.ClosurePath root p leaf)
    (hleaf : (g.finalize options).net.node? leaf = some node)
    (hi : node.weightIndex? volume = some i) :
    ∃ paths : Finset (List (NodeId × Side)),
      (∀ p, p ∈ paths ↔ (g.finalize options).net.ClosurePath root p leaf) ∧
        ∀ q, (g.finalize options).net.Value env (.input leaf i) q ↔
          q = ∑ p ∈ paths, (g.finalize options).net.pathWeight env p := by
  have hnet : (g.finalize options).net = g.net.finalize g.output options := by
    rw [finalize, hg.finalized_eq_none, if_neg (fun e => by cases e), base, hg.finalized_eq_none]
  rw [hnet] at hroot hp hleaf ⊢
  have hv := hg.sound.valid
  have ho := hg.sound.output
  have hfin := (hv.finalize_spec ho options).1.finite_paths root leaf
  refine ⟨hfin.toFinset, fun p => hfin.mem_toFinset, fun q => ?_⟩
  rw [hv.value_finalize_iff ho hg.blank options env hroot hp hleaf hi, Network.pathSum,
    finsum_mem_eq_finite_toFinset_sum]

/-! ### A closure with two paths -/

lemma Drawn.add (hg : g.Drawn allowed) (kind : NodeKind) : (g.add kind).2.Drawn allowed :=
  .edit hg (.add kind)

def connected (g : Graph) (source : NodeId) (output : String) (target : NodeId) (input : String) :
    Graph :=
  (g.connect source output target input).toOption.getD g

lemma Drawn.connected (hg : g.Drawn allowed) {source : NodeId} {output : String} {target : NodeId}
    {input : String} (ha : allowed input) :
    (g.connected source output target input).Drawn allowed := by
  unfold Graph.connected
  cases h : g.connect source output target input with
  | error e => exact hg
  | ok g' => exact .edit hg (.connect ha h)

/-- A diffuse closure that is mixed with a glossy one and then added to the mix. -/
def sharedDiffuse : Graph :=
  let g := ((((new.add .diffuseBsdf).2.add .mixClosure).2.add .glossyBsdf).2.add .addClosure).2
  ((((g.connected 1 "BSDF" 2 "Closure1").connected 3 "BSDF" 2 "Closure2").connected 2 "Closure" 4
    "Closure1").connected 1 "BSDF" 4 "Closure2").connected 4 "Closure" 0 "Surface"

lemma sharedDiffuse_drawn : sharedDiffuse.Drawn IsPlainName := by
  refine Drawn.connected (Drawn.connected (Drawn.connected (Drawn.connected (Drawn.connected
    (Drawn.add (Drawn.add (Drawn.add (Drawn.add .new _) _) _) _) ?_) ?_) ?_) ?_) ?_ <;>
    exact ⟨by decide, by decide⟩

/-- The weight of the shared closure, with its path through the mix. -/
theorem sharedDiffuse_weight :
    (sharedDiffuse.finalize {}).net.ClosurePath 4 [(4, .first), (2, .first)] 1 ∧
      ∃ paths : Finset (List (NodeId × Side)),
        (∀ p, p ∈ paths ↔ (sharedDiffuse.finalize {}).net.ClosurePath 4 p 1) ∧
          ∀ q, (sharedDiffuse.finalize {}).net.Value (fun _ => 0) (.input 1 3) q ↔
            q = ∑ p ∈ paths, (sharedDiffuse.finalize {}).net.pathWeight (fun _ => 0) p := by
  have hadd : (sharedDiffuse.finalize {}).net.kind? 4 = some .addClosure := by decide +kernel
  have hmix : (sharedDiffuse.finalize {}).net.kind? 2 = some .mixClosure := by decide +kernel
  have hfirst : (sharedDiffuse.finalize {}).net.inputLinkByName? 4 Side.first.input =
      some (2, 0) := by decide +kernel
  have hsecond : (sharedDiffuse.finalize {}).net.inputLinkByName? 2 Side.first.input =
      some (1, 0) := by decide +kernel
  have hp : (sharedDiffuse.finalize {}).net.ClosurePath 4 [(4, .first), (2, .first)] 1 :=
    .step hadd rfl hfirst (.step hmix rfl hsecond (.here 1))
  have hleaf : ((sharedDiffuse.finalize {}).net.node? 1).bind (·.weightIndex? false) = some 3 := by
    decide +kernel
  have hroot : (sharedDiffuse.finalize {}).net.inputLinkByName? sharedDiffuse.output
      (Network.closureTerminal false) = some (4, 0) := by decide +kernel
  obtain ⟨node, hn, hi⟩ := Option.bind_eq_some_iff.1 hleaf
  exact ⟨hp, sharedDiffuse_drawn.weight_eq_sum_paths {} _ hroot hp hn hi⟩

end Graph

end Shading
