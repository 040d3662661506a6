import Shading.Proofs.Bounds
import Shading.Proofs.Standard

/-!
# Nothing is left to fold

Going around a mix adds as many links as it takes away, so the number of links does not tell that
folding comes to an end.  What goes down is how far links can still move, on any network whose links
make no circle (`Acyclic.foldsTo_foldConstants`).  When it has come to an end, folding any node once
more would change nothing.  For graphs made by edits this says which links are gone (`FullyFolded`),
however many sockets scripts bring.
-/

namespace Shading

namespace Network

/-- Constants are not linked to inputs that could hold them, and neither lights that are black or off
nor mixes that show one side only feed anything. -/
structure FullyFolded (net : Network) : Prop where
  value {id node v o t i} : net.node? id = some node → node.kind = .value v →
    net.Feeds (id, o) t → net.input? t.1 t.2 = some i → i.ty ≠ .float ∧ i.ty.isVec3 = false
  color {id node c o t i} : net.node? id = some node → node.kind = .rgb c →
    net.Feeds (id, o) t → net.input? t.1 t.2 = some i → i.ty.isVec3 = false
  math {id node op clamp o t i} : net.node? id = some node → node.kind = .math op clamp →
    net.isLinkedByName id "Value1" = false → net.isLinkedByName id "Value2" = false →
    net.Feeds (id, o) t → net.input? t.1 t.2 = some i → i.ty ≠ .float ∧ i.ty.isVec3 = false
  light {id node o t} : net.node? id = some node → node.kind = .emission ∨ node.kind = .background →
    net.isLinkedByName id "Color" = false ∧ (node.vec3 "Color").isZero = true ∨
      net.isLinkedByName id "Strength" = false ∧ (node.float "Strength" == 0) = true →
    ¬ net.Feeds (id, o) t
  mix {id node o t} : net.node? id = some node → node.kind = .mixClosure →
    net.isLinkedByName id "Fac" = false →
    (node.float "Fac" == 0) = true ∨ (node.float "Fac" == 1) = true → ¬ net.Feeds (id, o) t

variable {net net' : Network} {id target : NodeId} {node : Node} {o : Nat} {t source : NodeId × Nat}

/-- A node that is no script and has one output feeds what it feeds from that output. -/
lemma Intact.output_eq_zero (h : net.Intact) (hs : net.Standard) (hn : net.node? id = some node)
    (hk : node.kind.isScript = false) (hone : node.kind.outputs.length = 1)
    (hf : net.Feeds (id, o) t) : o = 0 := by
  obtain ⟨f, hform, hlt⟩ := h.offers hf
  obtain rfl := Option.some.inj ((form?_of_node? hn).symm.trans hform)
  rw [hs.sockets hform hk] at hlt
  exact Nat.lt_one_iff.1 (hone ▸ hlt)

lemma Intact.mixesAtFirst (h : net.Intact) (hs : net.Standard) : net.MixesAtFirst := by
  intro id o t hk hf
  obtain ⟨node, hn, hkind⟩ := kind?_eq_some_iff.1 hk
  exact h.output_eq_zero hs hn (hkind ▸ rfl) (hkind ▸ rfl) hf

lemma convertConstant_float_eq_none {x : Float32} {ty : SocketType}
    (h : convertConstant (.float x) ty = none) : ty ≠ .float ∧ ty.isVec3 = false := by
  by_cases hty : ty = .float
  · simp [convertConstant, hty] at h
  · exact ⟨hty, by simpa [convertConstant, hty] using h⟩

/-- The links that folding would remove are not there. -/
lemma Folded.fullyFolded (h : net.Folded) (hi : net.Intact) (hs : net.Standard) :
    net.FullyFolded := by
  constructor
  · intro id node v o t i hn hk hf hin
    obtain rfl := hi.output_eq_zero hs hn (hk ▸ rfl) (hk ▸ rfl) hf
    have hex := h id node hn
    simp only [foldOf, hk] at hex
    exact convertConstant_float_eq_none (by simpa [hin] using hex t hf)
  · intro id node c o t i hn hk hf hin
    obtain rfl := hi.output_eq_zero hs hn (hk ▸ rfl) (hk ▸ rfl) hf
    have hex := h id node hn
    simp only [foldOf, hk] at hex
    simpa [hin, convertConstant] using hex t hf
  · intro id node op clamp o t i hn hk h₁ h₂ hf hin
    obtain rfl := hi.output_eq_zero hs hn (hk ▸ rfl) (hk ▸ rfl) hf
    have hex := h id node hn
    simp only [foldOf, hk, h₁, h₂, Bool.or_self, Bool.false_eq_true, if_false] at hex
    exact convertConstant_float_eq_none (by simpa [hin] using hex t hf)
  · intro id node o t hn hk hoff
    have hex := h id node hn
    have hdiscard : net.foldOf id node = .discard := by
      obtain hk | hk := hk <;> obtain ⟨hl, hz⟩ | ⟨hl, hz⟩ := hoff <;> simp [foldOf, hk, hl, hz]
    rw [hdiscard] at hex
    exact hex o t
  · intro id node o t hn hk hl hfac hf
    obtain rfl := hi.output_eq_zero hs hn (hk ▸ rfl) (hk ▸ rfl) hf
    have hex := h id node hn
    obtain ⟨input, hbypass⟩ : ∃ input, net.foldOf id node = .bypass input := by
      by_cases hzero : (node.float "Fac" == 0) = true
      · exact ⟨1, by simp [foldOf, hk, hl, hzero]⟩
      · exact ⟨2, by simp [foldOf, hk, hl, hzero, hfac.resolve_left hzero]⟩
    rw [hbypass] at hex
    exact hex t hf

/-! ## Edits -/

/-- Links join what is there and make no circle. -/
structure Woven (net : Network) : Prop where
  intact : net.Intact
  ranked : ∃ rank, net.Ranked rank

lemma Woven.of_sublist (h : net.Woven) (he : net.Extends net')
    (hs : net'.links.Sublist net.links) : net'.Woven := by
  obtain ⟨rank, hr⟩ := h.ranked
  exact ⟨h.intact.of_sublist he hs, rank, fun l hl => hr l (hs.subset hl)⟩

lemma Woven.addNode (h : net.Woven) (node : Node) : (net.addNode node).2.Woven := by
  obtain ⟨rank, hr⟩ := h.ranked
  have hform : ∀ {n f}, net.form? n = some f → (net.addNode node).2.form? n = some f :=
    fun hf => h.intact.spaced.form?_addNode node hf
  refine ⟨⟨h.intact.spaced.addNode node, fun hab => ?_, fun hab => ?_⟩, rank, fun l hl =>
    hr l (links_addNode node ▸ hl)⟩
  · obtain ⟨f, hf, hlt⟩ := h.intact.offers ((feeds_addNode ..).1 hab)
    exact ⟨f, hform hf, hlt⟩
  · obtain ⟨f, hf⟩ := contains_iff.1 (h.intact.target ((feeds_addNode ..).1 hab))
    exact contains_iff.2 ⟨f, hform hf⟩

lemma Woven.link (h : net.Woven) (hs : net.Offers source) (ht : net.contains target = true)
    (hp : net.hasPath target source.1 = false) (input : Nat) :
    (net.link source target input).Woven := by
  obtain ⟨rank, hr⟩ := h.ranked
  obtain ⟨rank', hr', hlt⟩ := exists_rank_of_hasPath hr.feeds (fun hab =>
    ⟨contains_iff_mem_ids.1 (h.intact.offers hab).contains,
      contains_iff_mem_ids.1 (h.intact.target hab)⟩) hp
  have hclimbs : net.Climbs (fun _ => True) rank' := fun l hl _ =>
    hr' ⟨l, hl, rfl, rfl⟩
  exact ⟨h.intact.link hs ht input, rank', fun l hl =>
    hclimbs.link (fun _ => hlt) input l hl trivial⟩

end Network

namespace Graph

variable {g : Graph}

/-- A change other than a preparation, which brings no sockets of its own but those of scripts. -/
def Change.IsPlainEdit : Change → Prop
  | .addNode node => node.kind.isScript = true
  | .finalize _ => False
  | _ => True

lemma lasting_woven : Lasting (fun _ => True) Network.Woven where
  empty := ⟨⟨Network.tidy_empty.toSpaced, fun hab => absurd hab (Network.not_feeds_empty _ _),
    fun hab => absurd hab (Network.not_feeds_empty _ _)⟩, fun _ => 0,
    fun l hl => by simp [Network.empty] at hl⟩
  spaced h := h.intact.spaced
  ofKind _ := trivial
  addNode h _ := h.addNode _
  setValue h _ := h.of_sublist (h.intact.spaced.setValue ..) (List.Sublist.refl _)
  unlink h id i := h.of_sublist (h.intact.spaced.unlink id i) (Network.links_unlink_sublist ..)
  link {_ _ _ i} h hfit hp := by
    obtain ⟨n, _, m, _, hn, ho, hm, _⟩ := Network.fit_iff.1 hfit
    exact h.link ⟨n.form, Network.form?_of_node? hn, (List.getElem?_eq_some_iff.1 ho).1⟩
      (Network.contains_of_node? hm) hp i

/-- Folding comes to an end on every network whose links make no circle.  On a graph made by edits,
whatever scripts it has, it leaves nothing to fold. -/
theorem foldConstants_exhausts :
    (∀ net : Network, net.Acyclic → net.FoldsTo net.foldConstants) ∧
    ∀ cs : List Change, (∀ c ∈ cs, c.IsPlainEdit) →
      (new.changes cs).net.foldConstants.FullyFolded := by
  refine ⟨fun net h => h.foldsTo_foldConstants, fun cs h => ?_⟩
  have hstandard : (new.changes cs).Standard := by
    refine changes_induction standard_new fun g c hc hg => hg.change ?_
    have hedit := h c hc
    cases c <;> first | exact hedit | trivial
  have hwoven : (new.changes cs).Throughout Network.Woven := by
    refine changes_induction lasting_woven.new fun g c hc hg =>
      hg.change lasting_woven (fun _ _ => trivial) ?_
    rintro options rfl
    exact (h _ hc).elim
  replace hwoven := hwoven.net
  obtain ⟨rank, hr⟩ := hwoven.ranked
  obtain ⟨⟨hi, hs⟩, hfolded⟩ := (Network.acyclic_of_rank hr).foldsTo_foldConstants.folded
    (I := fun net => net.Intact ∧ net.Standard)
    (fun hI => ⟨hI.1.foldRound.2, hI.2.of_extends hI.1.spaced.foldRound⟩)
    (fun hI => hI.1.mixesAtFirst hI.2) ⟨hwoven.intact, hstandard.net⟩
  exact hfolded.fullyFolded hi hs

/-- A sum of constants that is added to another one. -/
def sums : List Change :=
  [.add (.math .add false), .add (.math .add false), .connect 1 "Value" 2 "Value1"]

theorem sums_exhausts : (∀ c ∈ sums, c.IsPlainEdit) ∧ (new.changes sums).net.linkCount = 1 ∧
    (new.changes sums).net.foldConstants.FullyFolded := by
  have h : ∀ c ∈ sums, c.IsPlainEdit := by simp [sums, Change.IsPlainEdit]
  exact ⟨h, by decide +kernel, foldConstants_exhausts.2 sums h⟩

end Graph

end Shading
