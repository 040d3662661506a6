import Shading.Proofs.Preparation

/-!
# Edits and later preparations

A prepared graph keeps the network from before, and prepares that one anew when it is asked for with
other options.  What is done to the prepared network in the meantime is lost then, unless the record
is dropped.  Every edit drops it but the removal of a link.  So the removal of a link is only certain
to last if the graph was not prepared when it was made.

Preparation itself adds links without looking for cycles.  They do no harm between nodes with the
sockets of their kinds: values never depend on closures there.
-/

namespace Shading

open Network

namespace Network

variable {net : Network} {output n : NodeId} {i : Nat}

/-- What feeds an input is found by the names that its kind gives. -/
lemma Valid.inputLinkByName?_eq (hv : net.Valid) {k : NodeKind} (hk : net.kind? n = some k)
    (name : String) : net.inputLinkByName? n name =
      ((Node.ofKind k).inputIndex? name).bind (net.inputLink? n) := by
  obtain ⟨node, hn, rfl⟩ := kind?_eq_some_iff.1 hk
  simp [inputLinkByName?, hn, (hv.standard hn).inputIndex?]

/-- Preparation links no input of a node it keeps, the weights of closures and the normal of the
output node apart. -/
lemma Valid.inputLink?_finalize (hv : net.Valid) (ho : net.kind? output = some .output)
    (options : FinalizeOptions) {node : Node} (hn : (net.pruned output).node? n = some node)
    (hw : ¬ net.AnyWeight (n, i)) (hx : (n, i) ≠ (output, normalIndex))
    (hl : net.inputLink? n i = none) : (net.finalize output options).inputLink? n i = none := by
  obtain ⟨_, _, hkind, hlink, _⟩ := hv.pruned_spec ho
  obtain ⟨_, _, _, hbump⟩ := hv.unweighed_spec ho options
  obtain ⟨_, hweighed⟩ := hv.finalize_spec ho options
  obtain ⟨node', hn', hk', _⟩ := hbump.node hn
  have hw' : ¬ (net.unweighed output options).AnyWeight (n, i) := by
    rwa [AnyWeight.congr]
    rw [kind?_of_node? hn', hk', hkind (kind?_of_node? hn)]
  calc (net.finalize output options).inputLink? n i
      = (net.unweighed output options).inputLink? n i := hweighed.link hn' i hw'
    _ = (net.pruned output).inputLink? n i := hbump.link hn i hx
    _ = none := hlink hl

/-- The same, with the input found by its name. -/
lemma Valid.inputLinkByName?_finalize (hv : net.Valid) (ho : net.kind? output = some .output)
    (options : FinalizeOptions) {node : Node} (hn : (net.pruned output).node? n = some node)
    {k : NodeKind} (hk : net.kind? n = some k) {name : String}
    (hi : (Node.ofKind k).inputIndex? name = some i) (hw : ¬ net.AnyWeight (n, i))
    (hx : (n, i) ≠ (output, normalIndex)) (hl : net.inputLink? n i = none) :
    (net.finalize output options).inputLinkByName? n name = none := by
  obtain ⟨_, _, hkind, _⟩ := hv.pruned_spec ho
  obtain ⟨_, _, _, hbump⟩ := hv.unweighed_spec ho options
  obtain ⟨hvf, hweighed⟩ := hv.finalize_spec ho options
  have hkn : node.kind = k := Option.some.inj ((hkind (kind?_of_node? hn)).symm.trans hk)
  have hk' := hweighed.kind? (hbump.kind? ((kind?_of_node? hn).trans (congrArg some hkn)))
  rw [hvf.inputLinkByName?_eq hk', hi]
  exact hv.inputLink?_finalize ho options hn hw hx hl

end Network

namespace Graph

variable {g g' : Graph} {n : NodeId} {name : String} {removed : Bool}

/-! ## Removed links -/

/-- A graph that is prepared knows the network from before. -/
lemma Reached.isSome_unfinalized (h : g.Reached) (hf : g.finalized.isSome) :
    g.unfinalized.isSome := by
  induction h with
  | new => cases hf
  | edit hg e ih =>
    obtain ⟨_, _, hrecord⟩ := e.edited hg.sound.valid
    obtain ⟨hnone, _⟩ | ⟨hsame, hsame', _⟩ := hrecord
    · rw [hnone] at hf
      cases hf
    · rw [hsame']
      exact ih (hsame ▸ hf)
  | finalize hg options ih =>
    unfold Graph.finalize at hf ⊢
    split
    · rename_i h
      rw [if_pos h] at hf
      exact ih hf
    · rfl

lemma inputLinkByName?_disconnect (hv : g.net.Valid) (h : g.disconnect n name = .ok (removed, g')) :
    g'.net.inputLinkByName? n name = none := by
  obtain ⟨node, i, hn, hi, rfl⟩ := disconnect_eq_ok h
  simp [inputLinkByName?, node?_unlink, hn, hi, hv.tidy.inputLink?_unlink]

/-- A removed link stays away if the graph was not prepared when it was removed. -/
lemma Sound.inputLinkByName?_disconnect_finalize (hg : g.Sound) (hf : g.finalized = none)
    (h : g.disconnect n name = .ok (removed, g')) (hname : IsPlainName name)
    (hx : ¬ (n = g.output ∧ name = "Normal")) (options : FinalizeOptions)
    (hn : (g'.net.pruned g'.output).contains n = true) :
    (g'.finalize options).net.inputLinkByName? n name = none := by
  obtain ⟨m, i, hm, hi, rfl⟩ := disconnect_eq_ok h
  have hv := hg.valid.unlink n i
  have ho : (g.net.unlink n i).kind? g.output = some .output := (kind?_unlink ..).trans hg.output
  have hm' : (g.net.unlink n i).node? n = some m := (node?_unlink ..).trans hm
  obtain ⟨node, hnode⟩ := Option.isSome_iff_exists.1 hn
  rw [net_finalize (g := { g with net := g.net.unlink n i }) hf]
  have hi' := hi
  rw [(hg.valid.standard hm).inputIndex?] at hi'
  refine hv.inputLinkByName?_finalize ho options hnode (kind?_of_node? hm') hi' ?_ ?_ ?_
  · exact fun hw => hw.not_named hv (fun _ h => h) ⟨m, name, hm', hi, hname⟩
  · rintro e
    obtain ⟨rfl, rfl⟩ := Prod.mk.inj e
    obtain ⟨o, ho, hk⟩ := kind?_eq_some_iff.1 hg.output
    obtain rfl := Option.some.inj (hm.symm.trans ho)
    rw [hk, Node.inputIndex?, List.findIdx?_eq_some_iff_getElem] at hi'
    obtain ⟨_, hi', _⟩ := hi'
    exact hx ⟨rfl, (eq_of_beq hi').symm⟩
  · rw [hg.valid.tidy.inputLink?_unlink, if_pos rfl]

/-- With other options than before, preparation starts again from a network that has the link. -/
lemma Reached.disconnect_finalize (hg : g.Reached) (h : g.disconnect n name = .ok (removed, g'))
    {before options : FinalizeOptions} (hf : g.finalized = some before) (hne : before ≠ options) :
    g'.finalize options = g.finalize options := by
  obtain ⟨_, _, _, _, rfl⟩ := disconnect_eq_ok h
  obtain ⟨net, hu⟩ := Option.isSome_iff_exists.1 (hg.isSome_unfinalized (by rw [hf]; rfl))
  simp [Graph.finalize, base, hf, hu, hne]

/-- Every edit drops the record of a preparation but the removal of a link.  A link that is removed
from a graph that is not prepared stays away through every preparation, as long as its node does
(its number may be given to another): weights apart, which preparation feeds itself, and the normal
of the output node, which it may derive.  If the graph is prepared, a link stays away until it is
prepared with other options; then it is back, with all else that preparation gives without the
edit. -/
theorem Reached.edits_last (hg : g.Reached) :
    (∀ g', Edit (fun _ => True) g g' → g'.finalized = none ∨
      ∃ n name removed, g.disconnect n name = .ok (removed, g')) ∧
    ∀ n name removed g', g.disconnect n name = .ok (removed, g') → ∀ options,
      (g.finalized = none → IsPlainName name → ¬ (n = g.output ∧ name = "Normal") →
        (g'.net.pruned g'.output).contains n = true →
          (g'.finalize options).net.inputLinkByName? n name = none) ∧
      (g.finalized = some options → (g'.finalize options).net.inputLinkByName? n name = none) ∧
      ∀ before, g.finalized = some before → before ≠ options →
        g'.finalize options = g.finalize options := by
  have hv := hg.sound.valid
  refine ⟨fun g' e => ?_, fun n name removed g' h options => ⟨fun hf hname hx hn => ?_, fun hf => ?_,
    fun before hf hne => hg.disconnect_finalize h hf hne⟩⟩
  · obtain ⟨_, _, hrecord⟩ := e.edited hv
    exact hrecord.imp And.left fun h => h.2.2
  · exact hg.sound.inputLinkByName?_disconnect_finalize hf h hname hx options hn
  · have hsame : g'.finalized = some options := by
      obtain ⟨_, _, _, _, rfl⟩ := disconnect_eq_ok h
      exact hf
    rw [Graph.finalize, if_pos hsame]
    exact inputLinkByName?_disconnect hv h

def displaced : Graph :=
  (new.add (.displacement false)).2.connected 1 "Displacement" 0 "Displacement"

lemma displaced_drawn : displaced.Drawn fun _ => True := Drawn.connected (Drawn.add .new _) trivial

/-- The link of a displacement that was removed before preparation stays away, also if the normal is
to be derived from it. -/
theorem displaced_edits_last : displaced.Reached ∧ displaced.finalized = none ∧
    ∃ g', displaced.disconnect 0 "Displacement" = .ok (true, g') ∧
      (g'.finalize ⟨true, false⟩).net.inputLinkByName? 0 "Displacement" = none := by
  have hfresh : displaced.finalized = none := by decide +kernel
  have hkept : ((displaced.net.unlink 0 2).pruned displaced.output).contains 0 = true := by
    decide +kernel
  have hx : ¬ (0 = displaced.output ∧ "Displacement" = "Normal") := by simp
  have h : displaced.disconnect 0 "Displacement" =
      .ok (true, { displaced with net := displaced.net.unlink 0 2 }) := by
    have hreq : displaced.requireInput 0 "Displacement" = .ok (2, .vector) := by decide +kernel
    have hlinked : displaced.net.isInputLinked 0 2 = true := by decide +kernel
    rw [disconnect, hreq, ← hlinked]
    rfl
  have hreached := displaced_drawn.reached
  exact ⟨hreached, hfresh, _, h, (hreached.edits_last.2 _ _ _ _ h ⟨true, false⟩).1 hfresh
    ⟨by decide, by decide⟩ hx hkept⟩

/-! ## Preparing again and again -/

/-- Only the last preparation counts: options that differ start again from the same network. -/
lemma finalize_finalize_last (hg : g.finalized = none) (first last : FinalizeOptions) :
    (g.finalize first).finalize last = g.finalize last := by
  by_cases e : first = last
  · rw [e, finalize_finalize]
  · simp [finalize, base, hg, e]

/-- Preparing a graph that is not prepared with one set of options after the other gives the graph
that the last of them give. -/
theorem finalizes_last (g : Graph) (hg : g.finalized = none) (options : List FinalizeOptions)
    (last : FinalizeOptions) :
    (options ++ [last]).foldl finalize g = g.finalize last := by
  have hreached : options.foldl finalize g = g ∨
      ∃ o, options.foldl finalize g = g.finalize o := by
    induction options using List.reverseRecOn with
    | nil => exact .inl rfl
    | append_singleton options o ih =>
      rw [List.foldl_concat]
      obtain h | ⟨o', h⟩ := ih
      · exact .inr ⟨o, by rw [h]⟩
      · exact .inr ⟨o, by rw [h, finalize_finalize_last hg]⟩
  rw [List.foldl_concat]
  obtain h | ⟨o, h⟩ := hreached
  · rw [h]
  · rw [h, finalize_finalize_last hg]

/-- With the normal derived, without it, and derived again in object space. -/
theorem displaced_finalizes_last : displaced.finalized = none ∧
    [⟨true, false⟩, {}, ⟨true, true⟩].foldl finalize displaced = displaced.finalize ⟨true, true⟩ := by
  have hfresh : displaced.finalized = none := by decide +kernel
  exact ⟨hfresh, displaced.finalizes_last hfresh [⟨true, false⟩, {}] ⟨true, true⟩⟩

/-! ## Well-formed graphs -/

/-- The links of a graph make no cycle, no input has two of them, every link leads from an output to
an input that can take it, and the output node is there. -/
structure WellFormed (g : Graph) : Prop where
  acyclic : ∀ n, ¬ Relation.TransGen
    (fun a b => ∃ l ∈ g.net.links, l.2.source = a ∧ l.2.target = b) n n
  single : ∀ l ∈ g.net.links, ∀ m ∈ g.net.links, l.2.target = m.2.target → l.2.input = m.2.input →
    l = m
  joins : ∀ l ∈ g.net.links, ∃ source output target input,
    g.net.node? l.2.source = some source ∧ source.outputs[l.2.output.toNat]? = some output ∧
      g.net.node? l.2.target = some target ∧ target.inputs[l.2.input.toNat]? = some input ∧
        output.ty.linksTo input.ty = true
  output : ∃ node, g.net.node? g.output = some node ∧ node.kind = .output

lemma Sound.wellFormed (h : g.Sound) : g.WellFormed := by
  have hfeeds : ∀ l ∈ g.net.links,
      g.net.Feeds (l.2.source, l.2.output.toNat) (l.2.target, l.2.input.toNat) :=
    fun l hl => ⟨l, hl, rfl, rfl⟩
  obtain ⟨rank, hr⟩ := h.valid
  refine ⟨acyclic_of_rank fun l hl => hr.ranked (hfeeds l hl), fun l hl m hm ht hi => ?_,
    fun l hl => ?_, kind?_eq_some_iff.1 h.output⟩
  · exact h.valid.tidy.single l hl m hm (by rw [ht, hi])
  · obtain ⟨s, t, hs, ht, hst⟩ := h.valid.joins (hfeeds l hl)
    obtain ⟨k, o, hk, ho, rfl⟩ := outputType?_eq_some_iff.1 hs
    obtain ⟨source, hsource, rfl⟩ := kind?_eq_some_iff.1 hk
    obtain ⟨_, _, hk', _, _⟩ := inputType?_eq_some_iff.1 ht
    obtain ⟨target, htarget, _⟩ := kind?_eq_some_iff.1 hk'
    rw [h.valid.inputType?_eq htarget] at ht
    obtain ⟨input, hinput, rfl⟩ := Option.map_eq_some_iff.1 ht
    exact ⟨source, o, target, input, hsource, by rw [(h.valid.standard hsource).outputs, ho],
      htarget, hinput, hst⟩

/-- However a graph was edited and prepared, as long as its nodes have the sockets of their kinds,
preparing it with any options gives a graph that is well formed. -/
theorem Reached.wellFormed_finalize (hg : g.Reached) (options : FinalizeOptions) :
    (g.finalize options).WellFormed :=
  (hg.sound.finalize options).wellFormed

/-- A shared closure, whose weights preparation feeds from nodes that it adds. -/
theorem sharedDiffuse_wellFormed : sharedDiffuse.Reached ∧ (sharedDiffuse.finalize {}).WellFormed :=
  ⟨sharedDiffuse_drawn.reached, sharedDiffuse_drawn.reached.wellFormed_finalize {}⟩

end Graph

end Shading
