import Shading.Proofs.Preparation

/-!
# Where weights come from

If no weight input is linked before preparation, a closure that feeds a terminal has its weight from
mixes that feed the same terminal (`Valid.weighedBy_finalize`).
-/

namespace Shading.Network

variable {net base : Network} {volume : Bool} {s : NodeId × Nat} {output x : NodeId}
  {options : FinalizeOptions}

/-- A node feeds a terminal for closures, through mixes and sums only. -/
def FeedsTerminal (net : Network) (output : NodeId) (volume : Bool) (x : NodeId) : Prop :=
  ∃ root o p, net.inputLinkByName? output (closureTerminal volume) = some (root, o) ∧
    net.ClosurePath root p x

lemma FeedsTerminal.side (h : net.FeedsTerminal output volume x) {k : NodeKind} {side : Side}
    {source : NodeId} {o : Nat} (hk : net.kind? x = some k) (hc : k.special = .combineClosure)
    (hl : net.inputLinkByName? x side.input = some (source, o)) :
    net.FeedsTerminal output volume source := by
  obtain ⟨root, o', p, hroot, hp⟩ := h
  exact ⟨root, o', _, hroot, hp.append (.step hk hc hl (.here source))⟩

/-- Touching weights changes nothing about what feeds a terminal. -/
lemma Weighed.feedsTerminal_iff (hbase : base.Valid) (h : Weighed base.AnyWeight base net)
    (ho : base.kind? output = some .output) :
    net.FeedsTerminal output volume x ↔ base.FeedsTerminal output volume x := by
  obtain ⟨node, hn, _⟩ := kind?_eq_some_iff.1 ho
  unfold FeedsTerminal
  rw [h.inputLinkByName? hn (not_anyWeight ho rfl)]
  refine exists_congr fun root => exists_congr fun o => exists_congr fun p =>
    and_congr_right fun hl => ?_
  obtain ⟨k, hk⟩ := hbase.kind?_of_inputLinkByName? hl
  exact h.closurePath_iff hbase not_anyWeight hk

lemma FeedsTerminal.exists_kind? (hv : net.Valid) (h : net.FeedsTerminal output volume x) :
    ∃ k, net.kind? x = some k := by
  obtain ⟨root, o, p, hl, hp⟩ := h
  obtain ⟨k, hk⟩ := hv.kind?_of_inputLinkByName? hl
  exact hp.exists_kind? hv hk

/-- No weight input is linked. -/
def Unweighted (net : Network) : Prop := ∀ b, net.AnyWeight b → net.inputLink? b.1 b.2 = none

variable (hv : net.Valid) (ho : net.kind? output = some .output)
include hv ho

/-- After preparation all weights are made from mixes that feed their terminal. -/
lemma Unweighted.sourced_finalize (h : net.Unweighted) (volume : Bool) :
    let base := net.unweighed output options
    base.Sourced volume (base.FeedsTerminal output volume) (net.finalize output options) := by
  intro base
  have hfree : base.Unweighted := fun b hb =>
    let hframe := (hv.unweighed_spec ho options).2.2.1 b hb
    (hframe.2 (h b hframe.1)).1
  obtain ⟨_, start, stop, _, hf, hd, hf'⟩ := hv.finalize_walk ho options volume
  have hb : Weighed base.AnyWeight base stop :=
    (hf.mono fun _ h => ⟨_, h⟩).trans (hd.weighed.mono fun _ h => ⟨_, h⟩)
  have hstop : base.Sourced volume (base.FeedsTerminal output volume) stop := by
    refine hd.sourced _ (fun _ _ _ _ _ hM hk hc hl => hM.side hk hc hl) ?_ nofun fun b hb s hs => ?_
    · rintro root ⟨o, hl⟩
      exact ⟨root, o, [], hl, .here root⟩
    · rw [(Weighed.refl.weight_eq hf hb hb.other).1, hfree b ⟨_, hb⟩] at hs
      cases hs
  exact fun b hw s hs => hstop.weighed hb hf' hb.not_isWeight hw hw.other hs

/-- After preparation a closure has its weight from mixes that feed the terminal of the weight, if
no weight input was linked before. -/
theorem Valid.weighedBy_finalize (hfree : net.Unweighted) {volume' : Bool}
    (hx : (net.finalize output options).FeedsTerminal output volume' x) {i : Nat}
    (hw : (net.finalize output options).IsWeight volume (x, i))
    (hl : (net.finalize output options).inputLink? x i = some s) :
    (net.finalize output options).FeedsTerminal output volume x ∧
      (net.finalize output options).WeighedBy
        ((net.finalize output options).FeedsTerminal output volume) s := by
  obtain ⟨hbase, hbo, _, _⟩ := hv.unweighed_spec ho options
  obtain ⟨_, hweighed⟩ := hv.finalize_spec ho options
  have hsame : ∀ v, (net.finalize output options).FeedsTerminal output v =
      (net.unweighed output options).FeedsTerminal output v :=
    fun v => funext fun x => propext (hweighed.feedsTerminal_iff hbase hbo)
  rw [hsame] at hx ⊢
  obtain ⟨k, hk⟩ := hx.exists_kind? hbase
  obtain ⟨k', hk', hi⟩ := hw
  rw [hweighed.kind? hk] at hk'
  cases hk'
  exact hfree.sourced_finalize hv ho volume (x, i) ⟨k, hk, hi⟩ s hl

end Shading.Network
