import Shading.Proofs.Groups
import Shading.Proofs.Section
import Shading.Proofs.WeightSource

/-!
# Flags of sections and of groups

Sections and groups collect the flags of the nodes that they consist of, on different ways: a
section follows the weights of closures and stops at a mix of nothing, a group does neither.
Upstream of a weight there is nothing but what feeds the factors of mixes, so both meet the same
flags, unless the weights of a closure come from somewhere else or a mix of nothing has a factor.
-/

namespace Shading

open Emit SectionContext Network

lemma Way.mem_of_closed {next : NodeId → List NodeId} {P Q : NodeId → Prop} {a c : NodeId}
    (w : Way next P a c) (ha : Q a) (h : ∀ {x d}, Q x → d ∈ next x → P d → Q d) : Q c := by
  induction w with
  | here _ => exact ha
  | step _ hab w ih => exact ih (h ha hab w.left)

lemma ShaderFlags.with_eq_sup (f : ShaderFlags) (b : Bool) :
    { f with hasBssrdfBump := f.hasBssrdfBump || b } = f ⊔ { hasBssrdfBump := b } := by
  simp [Max.max, union]

/-! ## Networks -/

namespace Network

/-- No closure feeds both the surface and the volume. -/
def Separate (net : Network) (output : NodeId) : Prop :=
  ∀ x k, net.kind? x = some k → k.isClosure = true → net.FeedsTerminal output false x →
    ¬ net.FeedsTerminal output true x

/-- No mix of nothing has a linked factor. -/
def NoIdleFactor (net : Network) : Prop :=
  ∀ n, net.kind? n = some .mixClosure →
    (∀ side : Side, net.inputLinkByName? n side.input = none) → net.inputLinkByName? n "Fac" = none

end Network

namespace SectionContext

variable {ctx : SectionContext} {root n d : NodeId} {i o : Nat} {k : NodeKind} {f : ShaderFlags}

/-! ## Sections -/

def flagsOf (ctx : SectionContext) (n : NodeId) : ShaderFlags := ctx.valueFlags n ⊔ ctx.leafFlags n

/-- Only closures that combine no others have the flags of closures. -/
lemma leafFlags_eq_bot (h : ¬ ctx.IsLeaf n) : ctx.leafFlags n = ⊥ := by
  cases hk : ctx.net.kind? n with
  | none =>
    rw [leafFlags, hk]
    rfl
  | some k =>
    obtain ⟨node, hn, hkind⟩ := kind?_eq_some_iff.1 hk
    have hc : k.isClosure = false := by
      cases hc : k.isClosure with
      | false => rfl
      | true => exact absurd ⟨k, hk, hc⟩ h
    have hbump : ctx.graph.hasBump n = false := by
      simp [Graph.hasBump, hn, hkind, hc]
    rw [leafFlags, hk, Option.elim_some, closureFlags, hbump]
    split
    · cases k <;> first | rfl | cases hc
    · rfl

/-- A finished section has the flags of the nodes that are of use, and those of no other nodes than
what its terminal depends on. -/
theorem flags_of_compile_eq_ok (hs : ctx.graph.Supplies ctx.entry root o) {record : Bool}
    {ids : AttributeIds} {u : Unit} {t : SectionState}
    (h : ctx.compile (.new record ids) = .ok u t) :
    (entryFlags ctx.entry ≤ t.flags ∧
      ∀ n, Way ctx.sources (fun x => ¬ ctx.Idle x) root n → ctx.flagsOf n ≤ t.flags) ∧
    ∀ f, entryFlags ctx.entry ≤ f →
      (∀ n, Way ctx.sources (fun _ => True) root n → ctx.flagsOf n ≤ f) → t.flags ≤ f := by
  obtain ⟨hv, hout, hl⟩ := hs
  obtain ⟨state, s₁, s₂, henter, hvisit, hend⟩ := compile_eq_ok hl h
  obtain ⟨i, _, _, hname, hty⟩ := exists_terminal hv hout ctx.entry
  have hlink := (hname _).1 hl
  obtain ⟨hstate, hd, hcd, G, hwalk⟩ := (ensures_enterBump hout root record ids).of_ok rfl henter
  obtain ⟨G', hwalk', hroot⟩ := (ensures_visitRoot_entered (rooted_of_link hv hout hlink) hlink hty
    hstate hd hcd hwalk).of_ok rfl hvisit
  -- The flags of the section are those of the entry point and of what the walk has done.
  have hall : ctx.Requests fun _ => True := fun _ _ => .inr trivial
  obtain ⟨nodes, visited, hgains⟩ := moves_visit hall root _ _ hvisit
  have hstart : s₁.flags = ⊥ := by
    have hmoves : Moves (Appended ctx fun _ => False) ctx.enterBump := handles_appended.enterBump
    exact (hmoves henter).flags
  have hdone : ∀ n, n ∈ s₂.done ↔ n ∈ nodes := by
    intro n
    rw [hgains.done, hd]
    exact or_iff_right (OrderedSet.not_mem_empty n)
  have hbegun : ∀ n, n ∈ s₂.closureDone ↔ n ∈ visited := by
    intro n
    rw [hgains.begun, hcd]
    exact or_iff_right (OrderedSet.not_mem_empty n)
  have hflags : ∀ f, t.flags ≤ f ↔ entryFlags ctx.entry ≤ f ∧
      (∀ n ∈ s₂.done, ctx.valueFlags n ≤ f) ∧ ∀ n ∈ s₂.closureDone, ctx.leafFlags n ≤ f := by
    intro f
    rw [hend.flags, hgains.flags]
    simp only [ShaderFlags.union_le_iff, hstart, bot_le, true_and, hdone, hbegun]
  refine ⟨⟨((hflags _).1 le_rfl).1, fun n w => ?_⟩, fun f he hf => ?_⟩
  · obtain ⟨_, hvalue, hleaf⟩ := (hflags _).1 le_rfl
    have hmem : n ∈ s₂.done :=
      w.mem_of_closed (hroot.resolve_right w.left) fun hx hd hidle =>
        (hwalk'.closed _ hx _ hd).resolve_right hidle
    refine sup_le (hvalue n hmem) ?_
    by_cases hn : ctx.IsLeaf n
    · exact hleaf n (hwalk'.visited n hmem (.inl hn))
    · rw [leafFlags_eq_bot hn]
      exact bot_le
  · refine (hflags f).2 ⟨he, fun n hn => ?_, fun n hn => ?_⟩
    · exact le_sup_left.trans (hf n (hwalk'.upstream n hn))
    · have hn' := (hwalk'.begun n hn).resolve_right List.not_mem_nil
      exact le_sup_right.trans (hf n (hwalk'.upstream n hn'))

/-! ## The group of the same terminal -/

def group (ctx : SectionContext) : GroupContext := ⟨ctx.graph, ctx.entry, ctx.background⟩

/-- A node has the same flags in both. -/
lemma flagsOf_group (n : NodeId) : ctx.group.flagsOf n = ctx.flagsOf n := by
  rw [GroupContext.flagsOf, flagsOf, valueFlags, leafFlags]
  change (ctx.net.kind? n).elim ⊥ _ = _
  cases ctx.net.kind? n with
  | none => exact (sup_idem _).symm
  | some k =>
    change ctx.group.nodeFlags n k = (nodeFlags ctx.entry k).union (ctx.closureFlags n k)
    cases he : ctx.entry <;>
      simp [GroupContext.nodeFlags, nodeFlags, closureFlags, ShaderFlags.union, he, group,
        Bool.and_comm]

lemma Combines.flagsOf_eq_bot (h : ctx.Combines n) : ctx.flagsOf n = ⊥ := by
  obtain ⟨k, hk, hc⟩ := h
  obtain ⟨hvalue, hleaf⟩ := flags_of_combineClosure hk hc
  rw [flagsOf, hvalue, hleaf, sup_idem]

/-- Nodes that carry weights have no flags. -/
lemma flagsOf_eq_bot_of_weighedBy {M : NodeId → Prop} (h : ctx.net.WeighedBy M (n, o)) :
    ctx.flagsOf n = ⊥ := by
  have hplain : ∃ k, ctx.net.kind? n = some k ∧ k.isClosure = false ∧
      nodeFlags ctx.entry k = ⊥ := by
    cases h with
    | split hk _ _ => exact ⟨_, hk, rfl, by cases ctx.entry <;> rfl⟩
    | sum hk _ => exact ⟨_, hk, rfl, by cases ctx.entry <;> rfl⟩
  obtain ⟨k, hk, hc, hflags⟩ := hplain
  have hleaf : ¬ ctx.IsLeaf n := by
    rintro ⟨k', hk', hc'⟩
    rw [hk] at hk'
    cases hk'
    rw [hc] at hc'
    cases hc'
  rw [flagsOf, leafFlags_eq_bot hleaf, valueFlags, hk, Option.elim_some, hflags, sup_idem]

/-! ## Ways -/

lemma internal_iff {x : Input} (hx : k.inputs[i]? = some x) :
    x.internal = true ↔ ∃ volume, (Node.ofKind k).weightIndex? volume = some i := by
  have key : (k.inputs.zipIdx.all fun x => !x.1.internal ||
      (Node.ofKind k).weightIndex? false == some x.2 ||
        (Node.ofKind k).weightIndex? true == some x.2) = true := by
    cases k <;> rfl
  constructor
  · intro hint
    have := List.all_eq_true.1 key (x, i) (List.mem_zipIdx_iff_getElem?.2 hx)
    simp only [hint, Bool.not_true, Bool.false_or, Bool.or_eq_true, beq_iff_eq] at this
    exact this.elim (fun h => ⟨false, h⟩) fun h => ⟨true, h⟩
  · rintro ⟨volume, hi⟩
    rw [(weightIndex?_ofKind hi).2] at hx
    obtain rfl := Option.some.inj hx
    rfl

/-- The inputs that a group does not use besides those that the section skips are weights. -/
lemma mem_sources_group_iff (hv : ctx.net.Valid) (hk : ctx.net.kind? n = some k)
    (ho : k ≠ .output) : d ∈ ctx.group.sources n ↔
      ∃ i o, ctx.link? n i = some (d, o) ∧ ¬ ctx.net.AnyWeight (n, i) := by
  obtain ⟨node, hn, rfl⟩ := kind?_eq_some_iff.1 hk
  have hspecial : node.kind.special ≠ .output := by
    cases hkind : node.kind with
    | output => exact absurd hkind ho
    | _ => simp [NodeKind.special, NodeKind.isClosure]
  have hskips : ∀ {i o}, ctx.net.inputLink? n i = some (d, o) →
      (ctx.group.skips n i = false ↔ ctx.skips n i = false ∧ ¬ ctx.net.AnyWeight (n, i)) := by
    intro i o hl
    obtain ⟨socket, hs⟩ : ∃ socket, node.inputs[i]? = some socket :=
      ⟨_, List.getElem?_eq_getElem (hv.lt_length_of_inputLink? hn hl)⟩
    have hshape := (hv.standard hn).shape_getElem? i
    rw [hs, Option.map_some, eq_comm] at hshape
    obtain ⟨x, hx, hsh⟩ := Option.map_eq_some_iff.1 hshape
    have hweight : ctx.net.AnyWeight (n, i) ↔ socket.internal = true := by
      rw [← show x.internal = socket.internal from congrArg (fun y => y.2.2) hsh, internal_iff hx]
      refine exists_congr fun volume => ⟨?_, fun hi => ⟨_, hk, hi⟩⟩
      rintro ⟨l, hl, hi⟩
      rw [hk] at hl
      cases hl
      exact hi
    rw [hweight]
    have hgroup : ctx.group.skips n i = (socket.internal || ctx.skips n i) := by
      rw [GroupContext.skips, show ctx.group.graph = ctx.graph from rfl, hn]
      dsimp only
      rw [hs]
      dsimp only
      rw [if_neg hspecial, skips]
      cases socket.internal
      · cases (ctx.net.inputLink? n i).bind fun l => ctx.net.node? l.1 <;> rfl
      · rfl
    rw [hgroup, Bool.or_eq_false_iff, Bool.not_eq_true, and_comm]
  refine Iff.trans (Valid.mem_sources hv) ⟨?_, ?_⟩
  · rintro ⟨i, o, hskip, hl⟩
    obtain ⟨hskip', hw⟩ := (hskips hl).1 hskip
    exact ⟨i, o, link?_eq_some_iff.2 ⟨hskip', hl⟩, hw⟩
  · rintro ⟨i, o, hlink, hw⟩
    obtain ⟨hskip, hl⟩ := link?_eq_some_iff.1 hlink
    exact ⟨i, o, (hskips hl).2 ⟨hskip, hw⟩, hl⟩

/-- What a group follows a section follows as well. -/
lemma way_of_way_group (hv : ctx.net.Valid) {P : NodeId → Prop}
    (hroot : ∃ k, ctx.net.kind? root = some k ∧ k.outputs ≠ [])
    (w : Way ctx.group.sources P root n) : Way ctx.sources P root n := by
  induction w with
  | here ha => exact .here ha
  | step ha hab _ ih =>
    obtain ⟨k, hk, hout⟩ := hroot
    obtain ⟨i, o, hl, _⟩ := (mem_sources_group_iff hv hk (by rintro rfl; exact hout rfl)).1 hab
    have hmem := (mem_sources hv).2 ⟨i, o, hl⟩
    exact .step ha hmem (ih (hv.exists_outputs_of_source hmem))

/-- A group follows closure paths. -/
lemma way_group_of_closurePath (hv : ctx.net.Valid) {p : List (NodeId × Side)}
    (h : ctx.net.ClosurePath root p n) : Way ctx.group.sources (fun _ => True) root n := by
  induction h with
  | here _ => exact .here trivial
  | @step id source x k side output p hk hc hl _ ih =>
    have hcomb : ctx.Combines id := ⟨k, hk, hc⟩
    obtain ⟨hmem, _⟩ := (hcomb.mem_sources_iff hv).2 ⟨side, output, hl⟩
    obtain ⟨i, o, hlink⟩ := (mem_sources hv).1 hmem
    have hplain : k ≠ .output ∧ k.isClosure = false := by
      obtain rfl | rfl := special_eq_combineClosure.1 hc <;> exact ⟨nofun, rfl⟩
    refine .step trivial ((mem_sources_group_iff hv hk hplain.1).2 ⟨i, o, hlink, ?_⟩) ih
    exact not_anyWeight hk hplain.2 i

/-- Weights come from mixes that feed the terminal of the weight, and no closure has weights of two
terminals. -/
structure OwnWeights (ctx : SectionContext) : Prop where
  source : ∀ {volume volume' : Bool} {x : NodeId} {i : Nat} {s : NodeId × Nat},
    ctx.graph.net.FeedsTerminal ctx.graph.output volume' x →
    ctx.graph.net.IsWeight volume (x, i) → ctx.graph.net.inputLink? x i = some s →
      ctx.graph.net.FeedsTerminal ctx.graph.output volume x ∧
        ctx.graph.net.WeighedBy (ctx.graph.net.FeedsTerminal ctx.graph.output volume) s
  separate : ctx.graph.net.Separate ctx.graph.output

/-- What is met on the way up a section: nodes of the group, or nodes that carry the weights of
closures. -/
def Met (ctx : SectionContext) (root n : NodeId) : Prop :=
  Way ctx.group.sources (fun _ => True) root n ∨
    (ctx.entry = .surface ∨ ctx.entry = .volume) ∧ ∃ o, ctx.graph.net.WeighedBy
      (ctx.graph.net.FeedsTerminal ctx.graph.output (ctx.entry == .volume)) (n, o)

lemma closureTerminal_entry (h : ctx.entry = .surface ∨ ctx.entry = .volume) :
    closureTerminal (ctx.entry == .volume) = ctx.entry.terminal := by
  obtain h | h := h <;> rw [h] <;> rfl

/-- From a node of the group, a section goes on to nodes of the group and to weights. -/
lemma Met.of_way (hs : ctx.graph.Supplies ctx.entry root o) (hown : ctx.OwnWeights)
    (w : Way ctx.group.sources (fun _ => True) root n) (hd : d ∈ ctx.sources n) :
    ctx.Met root d := by
  obtain ⟨hv, hout, hl⟩ := hs
  obtain ⟨j, _, _, hname, hty⟩ := exists_terminal hv hout ctx.entry
  have hlink := (hname _).1 hl
  have hroot := hv.exists_outputs hlink
  have hway := way_of_way_group hv hroot w
  obtain ⟨k, hk, houtputs⟩ := hway.exists_outputs hv hroot
  obtain ⟨i, o', hi⟩ := (mem_sources hv).1 hd
  by_cases hweight : ctx.net.AnyWeight (n, i)
  · -- The node is a closure, and it feeds the terminal, so the weight is that of the terminal.
    obtain ⟨volume, hvolume⟩ := hweight
    obtain ⟨l, hkl, hidx⟩ := id hvolume
    have hclosure := (weightIndex?_ofKind hidx).1
    have hleaf : ctx.IsLeaf n := ⟨l, hkl, hclosure⟩
    obtain ⟨p, hp, _⟩ := closurePath_of_way hv hway (kind?_ne_of_outputs hroot rfl) (.inl hleaf)
    have hentry : ctx.entry = .surface ∨ ctx.entry = .volume := by
      refine hty.1 (inputType?_of_closure hv hlink ?_)
      cases hp with
      | here _ => exact .inl hleaf
      | step hk hc _ _ => exact .inr ⟨_, hk, hc⟩
    have hfeeds : ctx.net.FeedsTerminal ctx.graph.output (ctx.entry == .volume) n := by
      refine ⟨root, o, p, ?_, hp⟩
      rw [closureTerminal_entry hentry, hl]
    obtain ⟨hfeeds', hby⟩ := hown.source hfeeds hvolume (link?_eq_some_iff.1 hi).2
    have hsame : volume = (ctx.entry == .volume) := by
      by_contra hne
      cases hb : (ctx.entry == .volume) <;> rw [hb] at hfeeds hne
      · rw [Bool.not_eq_false] at hne
        exact hown.separate n l hkl hclosure hfeeds (hne ▸ hfeeds')
      · rw [Bool.not_eq_true] at hne
        exact hown.separate n l hkl hclosure (hne ▸ hfeeds') hfeeds
    exact .inr ⟨hentry, o', hsame ▸ hby⟩
  · refine .inl (w.snoc ((mem_sources_group_iff hv hk ?_).2 ⟨i, o', hi, hweight⟩) trivial)
    rintro rfl
    exact houtputs rfl

/-- From a weight, a section goes on to weights and to what feeds the factors of mixes. -/
lemma Met.of_weighedBy (hs : ctx.graph.Supplies ctx.entry root o)
    (hentry : ctx.entry = .surface ∨ ctx.entry = .volume) {o' : Nat}
    (h : ctx.net.WeighedBy (ctx.net.FeedsTerminal ctx.graph.output (ctx.entry == .volume)) (n, o'))
    (hd : d ∈ ctx.sources n) : ctx.Met root d := by
  obtain ⟨hv, _, hl⟩ := hs
  obtain ⟨i, o'', hi⟩ := (mem_sources hv).1 hd
  obtain ⟨_, hlink⟩ := link?_eq_some_iff.1 hi
  cases h with
  | sum _ hterms => exact .inr ⟨hentry, o'', hterms i _ hlink⟩
  | split hk hweight hfactor =>
    have hlt : i < 2 := by
      obtain ⟨node, hn, hkind⟩ := kind?_eq_some_iff.1 hk
      have hlen : node.inputs.length = 2 := by
        have := congrArg List.length (hv.standard hn).inputs
        rw [List.length_map, List.length_map, hkind] at this
        exact this
      exact hlen ▸ hv.lt_length_of_inputLink? hn hlink
    interval_cases i
    · exact .inr ⟨hentry, o'', hweight _ hlink⟩
    · obtain ⟨m, ⟨root', o₁, p, hroot', hp⟩, hkm, hm⟩ := hfactor _ hlink
      rw [closureTerminal_entry hentry, hl] at hroot'
      cases hroot'
      have hskip : ctx.skips m 0 = false := by
        obtain h | h := hentry <;> simp [skips, h]
      refine .inl ((way_group_of_closurePath hv hp).snoc ?_ trivial)
      exact (mem_sources_group_iff hv hkm (by simp)).2
        ⟨0, o'', link?_eq_some_iff.2 ⟨hskip, hm⟩, not_anyWeight hkm rfl 0⟩

/-- Whatever a section depends on its group depends on, or it carries a weight. -/
theorem met_of_way (hs : ctx.graph.Supplies ctx.entry root o) (hown : ctx.OwnWeights)
    (w : Way ctx.sources (fun _ => True) root n) : ctx.Met root n := by
  refine w.mem_of_closed (.inl (.here trivial)) ?_
  rintro x d (wx | ⟨hentry, o', hx⟩) hd _
  · exact .of_way hs hown wx hd
  · exact .of_weighedBy hs hentry hx hd

/-- A mix or sum of nothing without a factor has no sources. -/
lemma Idle.not_mem_sources (hv : ctx.net.Valid) (hfac : ctx.net.NoIdleFactor)
    (h : ctx.Idle n) : d ∉ ctx.sources n := by
  intro hd
  obtain ⟨i, o, hi⟩ := (mem_sources hv).1 hd
  obtain ⟨_, hl⟩ := link?_eq_some_iff.1 hi
  by_cases hty : ctx.net.inputType? (n, i) = some .closure
  · obtain ⟨side, hside⟩ := h.1.exists_side hv hty
    have := (hside _).2 hl
    rw [h.2 side] at this
    cases this
  · -- What is no closure is the factor of a mix.
    obtain ⟨_, t, _, ht, _⟩ := hv.joins (feeds_of_inputLink? hl)
    obtain ⟨k, x, hk, hx, rfl⟩ := inputType?_eq_some_iff.1 ht
    rw [ht] at hty
    obtain ⟨k', hk', hc⟩ := h.1
    rw [hk] at hk'
    cases hk'
    have hfactor : k = .mixClosure ∧ i = 0 := by
      obtain rfl | rfl := special_eq_combineClosure.1 hc
      · have hlt : i < 3 := (List.getElem?_eq_some_iff.1 hx).1
        interval_cases i <;> cases hx <;> first | exact ⟨rfl, rfl⟩ | exact absurd rfl hty
      · have hlt : i < 2 := (List.getElem?_eq_some_iff.1 hx).1
        interval_cases i <;> cases hx <;> exact absurd rfl hty
    obtain ⟨rfl, rfl⟩ := hfactor
    have hnone := hfac n hk h.2
    rw [hv.inputLinkByName?_eq hk] at hnone
    change ctx.net.inputLink? n 0 = none at hnone
    rw [hl] at hnone
    cases hnone

/-- Whatever a group depends on is of use in the section, or it is a mix or sum of nothing. -/
theorem idle_or_way_of_way_group (hv : ctx.net.Valid)
    (hroot : ∃ k, ctx.net.kind? root = some k ∧ k.outputs ≠ [])
    (hfac : ctx.net.NoIdleFactor)
    (w : Way ctx.group.sources (fun _ => True) root n) :
    ctx.Idle n ∨ Way ctx.sources (fun x => ¬ ctx.Idle x) root n := by
  refine (way_of_way_group hv hroot w).mem_of_closed
    (Q := fun n => ctx.Idle n ∨ Way ctx.sources (fun x => ¬ ctx.Idle x) root n) ?_ ?_
  · exact (em _).imp_right fun h => .here h
  · rintro x d (hx | hx) hd _
    · exact absurd hd (hx.not_mem_sources hv hfac)
    · exact (em _).imp_right fun h => hx.snoc hd h

/-! ## Flags of both -/

variable {record : Bool} {ids : AttributeIds} {u : Unit} {t : SectionState} {name : String}
  {host : EngineHost} {group : GroupId} {t' : GroupState}

section

variable (hs : ctx.graph.Supplies ctx.entry root o) (h : ctx.compile (.new record ids) = .ok u t)
  (hg : ctx.group.build name { host } = .ok group t')
include hs h hg

lemma flags_le_group (hown : ctx.OwnWeights) : t.flags ≤ t'.flags ⊔ ctx.entry.groupFlags := by
  have hgroup := (flags_of_build_eq_ok hs hg).1 le_rfl
  refine (flags_of_compile_eq_ok hs h).2 _ ?_ fun n w => ?_
  · refine le_trans (le_of_eq ?_) le_sup_right
    cases ctx.entry <;> rfl
  · obtain hn | ⟨_, o', hn⟩ := met_of_way hs hown w
    · exact (flagsOf_group n ▸ hgroup n hn).trans le_sup_left
    · rw [flagsOf_eq_bot_of_weighedBy hn]
      exact bot_le

lemma group_flags_le (hfac : ctx.net.NoIdleFactor) :
    t'.flags ⊔ ctx.entry.groupFlags ≤ t.flags := by
  obtain ⟨⟨hentry, hof⟩, _⟩ := flags_of_compile_eq_ok hs h
  obtain ⟨j, _, _, hname, _⟩ := exists_terminal hs.valid hs.output ctx.entry
  have hroot := hs.valid.exists_outputs ((hname _).1 hs.link)
  refine sup_le ((flags_of_build_eq_ok hs hg).2 fun n w => ?_) ?_
  · rw [flagsOf_group]
    obtain hn | hn := idle_or_way_of_way_group hs.valid hroot hfac w
    · rw [hn.1.flagsOf_eq_bot]
      exact bot_le
    · exact hof n hn
  · refine le_trans (le_of_eq ?_) hentry
    cases ctx.entry <;> rfl

end

end SectionContext

/-! ## Results -/

variable {s : Shader} {e : EntryPoint} {f : ShaderFlags} {allowed : String → Prop}

/-! ## Shaders -/

namespace Shader

variable {options : BytecodeOptions} {ids : AttributeIds} {host : EngineHost}

/-- The weights of a prepared shader come from the mixes of their terminals, if none was linked
before and no closure feeds both terminals. -/
lemma ownWeights_prepare (hg : s.graph.Sound) (hf : s.graph.finalized = none)
    (hfree : s.graph.net.Unweighted)
    (hsep : s.prepare.graph.net.Separate s.prepare.graph.output) :
    (s.prepare.sectionContext options e).OwnWeights := by
  refine ⟨fun {volume volume' x i source} hx hw hl => ?_, hsep⟩
  dsimp only [sectionContext, prepare] at hx hw hl ⊢
  rw [Graph.net_finalize hf, Graph.output_finalize] at hx ⊢
  rw [Graph.net_finalize hf] at hw hl
  exact hg.valid.weighedBy_finalize hg.output hfree hx hw hl

/-- Groups have the flags that they begin with where displacement asks for a bump. -/
lemma le_compileGroups_flags : { hasBump := s.needsBump } ⊔ { hasBssrdfBump := s.needsBump } ≤
      (s.compileGroups options.background host).2.1.flags := by
  have hbegin := ShaderFlags.with_eq_sup { hasBump := s.needsBump } s.needsBump
  exact hbegin.ge.trans (s.made_compileGroups options.background host).start_le

lemma compileBytecode_flags_le (hg : s.graph.Drawn allowed)
    (he : (s.compileGroups options.background host).1.failures = [])
    (hfree : s.graph.net.Unweighted) (hsep : s.prepare.graph.net.Separate s.prepare.graph.output)
    (hsurface : s.needsBump = true → s.prepare.isTerminalLinked .surface = true) :
    (s.compileBytecode options ids).2.1.flags ≤
      (s.compileGroups options.background host).2.1.flags := by
  have hsound := sound_prepare hg.reached
  obtain ⟨finished, hmade⟩ := exists_made s.prepare s.needsBump options ids
  refine (hmade.flags _).2 ⟨le_sup_left.trans le_compileGroups_flags, fun e t ht => ?_⟩
  obtain ⟨ids', hrun⟩ := hmade.runs ht
  obtain ⟨hmem, hlinked, _⟩ := (hmade.present e).1 (Option.isSome_iff_exists.2 ⟨t, ht⟩)
  obtain ⟨⟨root, o⟩, hl⟩ := Option.isSome_iff_exists.1 hlinked
  obtain ⟨host', group, t', hbuild, hle⟩ := (s.made_compileGroups options.background host).le_flags
    e ((isSome_groups_iff he).2 ⟨hlinked, fun h => hsurface (mem_bytecodeEntries.1 hmem h)⟩)
  have hown : (s.prepare.sectionContext options e).OwnWeights :=
    ownWeights_prepare hg.sound hg.finalized_eq_none hfree hsep
  have hflags := flags_le_group ⟨hsound.valid, hsound.output, hl⟩ hrun hbuild hown
  exact hflags.trans hle

lemma compileGroups_flags_le (hg : s.graph.Drawn allowed) (hn : s.isTerminalLinked .bump = false)
    (hb : (s.compileBytecode options ids).1.failures = [])
    (hfac : s.prepare.graph.net.NoIdleFactor) :
    (s.compileGroups options.background host).2.1.flags ≤
      (s.compileBytecode options ids).2.1.flags ⊔ { hasBssrdfBump := s.needsBump } := by
  have hsound := sound_prepare hg.reached
  obtain ⟨finished, hmade⟩ := exists_made s.prepare s.needsBump options ids
  obtain ⟨hstart, hsection⟩ := (hmade.flags _).1 le_rfl
  refine (s.made_compileGroups options.background host).flags_le _ ?_ ?_
  · have hbegin := ShaderFlags.with_eq_sup { hasBump := s.needsBump } s.needsBump
    exact hbegin.le.trans (sup_le_sup_right hstart _)
  intro e _ hlinked host' group t' hbuild
  obtain ⟨⟨root, o⟩, hl⟩ := Option.isSome_iff_exists.1 hlinked
  have hmem : e ∈ bytecodeEntries s.needsBump := by
    refine mem_bytecodeEntries.2 fun h => ?_
    by_contra hbump
    rw [h, isTerminalLinked_prepare_bump hg.sound hg.finalized_eq_none
      (Bool.eq_false_of_not_eq_true hbump) hn] at hlinked
    cases hlinked
  have hsome : (finished.get? e).isSome = true := by
    rw [hmade.present, List.reverse_eq_nil_iff.1 hb]
    exact ⟨hmem, hlinked, List.forall_mem_nil _⟩
  obtain ⟨t, ht⟩ := Option.isSome_iff_exists.1 hsome
  obtain ⟨ids', hrun⟩ := hmade.runs ht
  have hflags := group_flags_le ⟨hsound.valid, hsound.output, hl⟩ hrun hbuild hfac
  exact (hflags.trans (hsection e t ht)).trans le_sup_left

/-- A shader whose graph only edits have made, with no link to the normal of the output node, is
compiled to instructions and to groups, and nothing fails.  Apart from the flag of a bumped
subsurface closure, which groups start with where displacement asks for a bump, both find the same
flags.  Three conditions are needed for those of the instructions to be found by the groups: no
weight input is linked, no closure feeds both the surface and the volume, and preparation has not
folded away the surface of a bump.  The other way round it takes that no mix of nothing has a linked
factor. -/
theorem compileGroups_flags_eq {allowed : String → Prop} (hg : s.graph.Drawn allowed)
    (hn : s.isTerminalLinked .bump = false) (options : BytecodeOptions) (ids : AttributeIds)
    (host : EngineHost) (hb : (s.compileBytecode options ids).1.failures = [])
    (he : (s.compileGroups options.background host).1.failures = []) :
    let sections := (s.compileBytecode options ids).2.1.flags
    let groups := (s.compileGroups options.background host).2.1.flags
    let own := s.graph.net.Unweighted ∧ s.prepare.graph.net.Separate s.prepare.graph.output ∧
      (s.needsBump = true → s.prepare.isTerminalLinked .surface = true)
    (own → sections ≤ groups) ∧
      (s.prepare.graph.net.NoIdleFactor →
        groups ≤ { sections with hasBssrdfBump := sections.hasBssrdfBump || s.needsBump }) ∧
      (own → s.prepare.graph.net.NoIdleFactor →
        groups = { sections with hasBssrdfBump := sections.hasBssrdfBump || s.needsBump }) := by
  intro sections groups own
  have hforth : own → sections ≤ groups := fun ⟨hfree, hsep, hsurface⟩ =>
    compileBytecode_flags_le hg he hfree hsep hsurface
  have hrecord : { sections with hasBssrdfBump := sections.hasBssrdfBump || s.needsBump } =
      sections ⊔ { hasBssrdfBump := s.needsBump } := ShaderFlags.with_eq_sup ..
  rw [hrecord]
  refine ⟨hforth, compileGroups_flags_le hg hn hb, fun hown hfac =>
    le_antisymm (compileGroups_flags_le hg hn hb hfac) (sup_le (hforth hown) ?_)⟩
  exact le_sup_right.trans le_compileGroups_flags

lemma filled_separate : filled.prepare.graph.net.Separate filled.prepare.graph.output := by
  have hsurface : filled.prepare.graph.net.inputLinkByName? filled.prepare.graph.output
      (closureTerminal false) = some (1, 0) := by decide +kernel
  have hvolume : filled.prepare.graph.net.inputLinkByName? filled.prepare.graph.output
      (closureTerminal true) = some (2, 0) := by decide +kernel
  have hdiffuse : filled.prepare.graph.net.kind? 1 = some .diffuseBsdf := by decide +kernel
  have habsorption : filled.prepare.graph.net.kind? 2 = some .absorptionVolume := by decide +kernel
  rintro x k _ _ ⟨root, o, p, hroot, hp⟩ ⟨root', o', p', hroot', hp'⟩
  rw [hsurface] at hroot
  rw [hvolume] at hroot'
  cases hroot
  cases hroot'
  have hx : 1 = x := (ClosurePath.eq_nil hdiffuse (by decide) hp).2
  have hx' : 2 = x := (ClosurePath.eq_nil habsorption (by decide) hp').2
  exact absurd (hx.trans hx'.symm) (by decide)

lemma filled_noIdleFactor : filled.prepare.graph.net.NoIdleFactor := by
  intro n hk _
  have hmix : ∀ n < filled.prepare.graph.net.nodes.size,
      filled.prepare.graph.net.kind? n ≠ some .mixClosure := by decide +kernel
  exact absurd hk (hmix n (lt_size_of_kind? hk))

/-- Both programs find a surface and a volume. -/
theorem filled_flags : (filled.compileBytecode {} .empty).1.failures = [] ∧
      (filled.compileGroups false .blank).1.failures = [] ∧
      (filled.compileBytecode {} .empty).2.1.flags.hasSurface = true ∧
      (filled.compileBytecode {} .empty).2.1.flags.hasVolume = true ∧
      (filled.compileGroups false .blank).2.1.flags =
        (filled.compileBytecode {} .empty).2.1.flags := by
  have hb : (filled.compileBytecode {} .empty).1.failures = [] := by decide +kernel
  have he : (filled.compileGroups false .blank).1.failures = [] := by decide +kernel
  refine ⟨hb, he, by decide +kernel, by decide +kernel, ?_⟩
  have hbump : filled.needsBump = false := by decide +kernel
  have h := (compileGroups_flags_eq filled_drawn (by decide +kernel) {} .empty .blank hb he).2.2
    ⟨fun b hb => (filled_drawn.blank b hb).1, filled_separate, by simp [hbump]⟩ filled_noIdleFactor
  simpa [hbump] using h

end Shader

end Shading
