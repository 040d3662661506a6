import Shading.Proofs.Changes

/-!
# Linking an input

A new link takes the place of the one that fed the input.  The search for cycles runs while the old
link is still there.  That does no harm: a way from the target of the new link never comes back to
the target, so it does not pass the old link.  A link is refused for a cycle exactly if there would
be one (`Graph.changes_connect`).
-/

namespace Shading

open List

namespace Network

variable {net : Network} {rank : NodeId → Nat} {source target m n : NodeId} {input : Nat}

/-- A link leads from one node to the other after an input has been linked to a source in place of
what fed it. -/
def Rewired (net : Network) (source : NodeId) (b : NodeId × Nat) (m n : NodeId) : Prop :=
  m = source ∧ n = b.1 ∨ ∃ o i, net.Feeds (m, o) (n, i) ∧ (n, i) ≠ b

/-- Ways lead upwards, so one that starts at the target or above does not pass the old link. -/
lemma reflTransGen_rewired (hr : ∀ {a b}, net.Feeds a b → rank a.1 < rank b.1)
    {P : NodeId → Prop} (w : Way net.successors P m n) (hm : rank target ≤ rank m) :
    Relation.ReflTransGen (net.Rewired source (target, input)) m n := by
  induction w with
  | here _ => exact .refl
  | step _ hab _ ih =>
    obtain ⟨o, i, hfeeds⟩ := mem_successors.1 hab
    have hlt := hr hfeeds
    refine .head (.inr ⟨o, i, hfeeds, fun e => ?_⟩) (ih (hm.trans hlt.le))
    obtain ⟨rfl, _⟩ := Prod.mk.inj e
    exact lt_irrefl _ (hm.trans_lt hlt)

lemma Fitted.hasPath_iff {N : Node → Prop} [Addressing N] (h : net.Fitted N rank) {output : Nat}
    (hfit : net.Fit (source, output) (target, input)) : net.hasPath target source = true ↔
      ∃ n, Relation.TransGen (net.Rewired source (target, input)) n n := by
  constructor
  · intro hp
    refine ⟨source, .head' (.inl ⟨rfl, rfl⟩) ?_⟩
    simp only [hasPath, Bool.or_eq_true, beq_iff_eq, contains_iff_mem,
      mem_reachable nodup_range, mem_singleton, exists_eq_left] at hp
    obtain rfl | w := hp
    · exact .refl
    · exact reflTransGen_rewired h.ranked w le_rfl
  · rintro ⟨n, hn⟩
    by_contra hp
    obtain ⟨rank', hr⟩ := h.link_of_hasPath hfit (Bool.eq_false_of_not_eq_true hp)
    obtain ⟨ho, hi⟩ := h.fits hfit
    refine not_transGen_self rank' (fun m n hmn => ?_) n hn
    obtain ⟨rfl, rfl⟩ | ⟨o, i, hfeeds, hne⟩ := hmn
    · exact hr.ranked ((h.tidy.feeds_link ho hi).2 (.inl ⟨rfl, rfl⟩))
    · exact hr.ranked ((h.tidy.feeds_link ho hi).2 (.inr ⟨hfeeds, hne⟩))

/-- A removed link is one less. -/
lemma Counted.length_removeLink (h : net.Counted) {l : Nat × Link} (hl : l ∈ net.links) :
    (net.removeLink l.1).links.length + 1 = net.links.length := by
  have hone : (net.links.map Prod.fst).count l.1 = 1 :=
    count_eq_one_of_mem h.numbers (mem_map_of_mem hl)
  have hrest : net.links.countP (fun m => decide ¬ (m.1 != l.1) = true) = 1 := by
    rw [← hone, count, countP_map]
    exact countP_congr fun m _ => by simp
  rw [length_eq_countP_add_countP (fun m => m.1 != l.1) (l := net.links), hrest,
    countP_eq_length_filter]
  rfl

lemma Counted.linkCount_link (h : net.Counted) (a : NodeId × Nat) (target : NodeId) (input : Nat) :
    (net.link a target input).linkCount =
      net.linkCount + if net.isInputLinked target input then 0 else 1 := by
  have hadd : ∀ (net : Network) l, (net.addLink l).linkCount = net.linkCount + 1 := by
    intro net l
    unfold Network.addLink
    split <;> exact length_cons
  rw [link, hadd, unlink, isInputLinked, inputLink?]
  cases hf : net.feed? target input with
  | none => rfl
  | some l => exact h.length_removeLink (mem_of_find?_eq_some hf)

end Network

namespace Graph

/-- Whatever a new graph was asked for, as long as it was not prepared, and whatever is to be
linked.  If both sockets are there and may be linked, the link is refused for a cycle exactly if
there would be one.  What is refused leaves a graph as it was, also one that is prepared.  Otherwise
the input is linked to the output, all other inputs keep their links and all nodes stay the same,
and there is one link more unless the input was linked before. -/
theorem changes_connect {cs : List Change} (h : ∀ c ∈ cs, c.IsEdit) (source : NodeId)
    (output : String) (target : NodeId) (input : String) :
    (∀ o s i t, (new.changes cs).requireOutput source output = .ok (o, s) →
      (new.changes cs).requireInput target input = .ok (i, t) → s.linksTo t = true →
        ((new.changes cs).connect source output target input =
            .error (.wouldCreateCycle source target) ↔
          ∃ n, Relation.TransGen ((new.changes cs).net.Rewired source (target, i)) n n)) ∧
    (∀ (g : Graph) e, g.connect source output target input = .error e →
      g.change (.connect source output target input) = g) ∧
    ∀ g, (new.changes cs).connect source output target input = .ok g →
      (new.changes cs).change (.connect source output target input) = g ∧
      ∃ o s i t, (new.changes cs).requireOutput source output = .ok (o, s) ∧
        (new.changes cs).requireInput target input = .ok (i, t) ∧
        g.net.inputLink? target i = some (source, o) ∧
        (∀ n j, (n, j) ≠ (target, i) →
          g.net.inputLink? n j = (new.changes cs).net.inputLink? n j) ∧
        (∀ n, g.net.node? n = (new.changes cs).net.node? n) ∧
        g.net.linkCount = (new.changes cs).net.linkCount +
          if (new.changes cs).net.isInputLinked target i then 0 else 1 := by
  have hfitted : (new.changes cs).Fitted Node.Addressable := fitted_changes h fun _ hn => h _ hn
  set g := new.changes cs
  obtain ⟨rank, hr⟩ := hfitted.net
  refine ⟨fun o s i t ho hi hst => ?_, fun g e he => ?_, fun g' hg => ⟨?_, ?_⟩⟩
  · rw [← hr.hasPath_iff (fit_of_require ho hi hst), connect, ho, hi]
    cases hp : g.net.hasPath target source <;> simp [bind, Except.bind, pure, Except.pure, hst]
  · rw [change, he]
    rfl
  · rw [change, hg]
    rfl
  · obtain ⟨o, s, i, t, ho, hi, hst, _, rfl⟩ := connect_eq_ok hg
    obtain ⟨hfo, hfi⟩ := hr.fits (fit_of_require ho hi hst)
    have hlink : ∀ n j, (g.net.link (source, o) target i).inputLink? n j = _ :=
      hr.tidy.inputLink?_link hfo hfi
    refine ⟨o, s, i, t, ho, hi, (hlink target i).trans (if_pos rfl),
      fun n j hne => (hlink n j).trans (if_neg hne), fun n => Network.node?_link ..,
      hr.tidy.linkCount_link ..⟩

/-- One arithmetic node feeds another one. -/
def chained : List Change :=
  [.add (.math .add false), .add (.math .add false), .connect 1 "Value" 2 "Value1"]

/-- The second node would feed itself through the first one, so the link back is refused. -/
theorem chained_connect : (∀ c ∈ chained, c.IsEdit) ∧
    (new.changes chained).connect 2 "Value" 1 "Value1" = .error (.wouldCreateCycle 2 1) ∧
    (new.changes chained).change (.connect 2 "Value" 1 "Value1") = new.changes chained := by
  have h : ∀ c ∈ chained, c.IsEdit := by simp [chained, Change.IsEdit]
  obtain ⟨hcycle, hkeep, _⟩ := changes_connect h 2 "Value" 1 "Value1"
  have hfeeds : (new.changes chained).net.Feeds (1, 0) (2, 0) :=
    show ∃ l ∈ (new.changes chained).net.links, _ by decide +kernel
  have herror := (hcycle 0 .float 0 .float (by decide +kernel) (by decide +kernel) rfl).2
    ⟨1, .head (.inr ⟨0, 0, hfeeds, by decide⟩) (.single (.inl ⟨rfl, rfl⟩))⟩
  exact ⟨h, herror, hkeep _ _ herror⟩

end Graph

end Shading
