import Shading.Proofs.Assignment
import Shading.Proofs.ClosureWeight

/-!
# What lies upstream in a section

A section is built against the links, from its terminal up.  This module holds what is true of the
network alone: which nodes feed a node in the section, that closures are fed through closures only,
so that every way up to a closure is a closure path, and which nodes are of use.

A mix or sum without linked closures contributes nothing; it is idle.  A node is of use if some way
up to it passes no idle node.  If the sources of a set of nodes are in the set or idle, then a node
of use outside the set is reached outside the set (`Way.outside`); the sets meant are the nodes that
are done.
-/

namespace Shading

open List Network NodeKind

/-- Ways keep outside a set that is closed up to nodes that they do not pass. -/
lemma Way.outside {next : NodeId → List NodeId} {P D : NodeId → Prop} {a c : NodeId}
    (hD : ∀ y, D y → ∀ d ∈ next y, P d → D d) (w : Way next P a c) (hc : ¬ D c) :
    Way next (fun x => P x ∧ ¬ D x) a c := by
  induction w with
  | here ha => exact .here ⟨ha, hc⟩
  | step ha hab w ih =>
    have rest := ih hc
    exact .step ⟨ha, fun h => rest.left.2 (hD _ h _ hab w.left)⟩ hab rest

/-! ## Sources and dependencies -/

namespace Network

variable {net : Network} {skip : NodeId → Nat → Bool} {n d c : NodeId} {i : Nat}
  {source : NodeId × Nat}

lemma Valid.lt_length_of_inputLink? (hv : net.Valid) {node : Node} (hn : net.node? n = some node)
    (hl : net.inputLink? n i = some source) : i < node.inputs.length := by
  obtain ⟨_, t, _, ht, _⟩ := hv.joins (feeds_of_inputLink? hl)
  rw [hv.inputType?_eq hn] at ht
  obtain ⟨x, hx, _⟩ := Option.map_eq_some_iff.1 ht
  exact (List.getElem?_eq_some_iff.1 hx).1

lemma Valid.mem_sources (hv : net.Valid) :
    d ∈ net.sources skip n ↔ ∃ i o, skip n i = false ∧ net.inputLink? n i = some (d, o) := by
  constructor
  · intro h
    rw [sources] at h
    split at h
    · cases h
    · obtain ⟨i, _, hi⟩ := mem_filterMap.1 h
      split at hi
      · cases hi
      · rename_i hskip
        obtain ⟨⟨d', o⟩, hl, rfl⟩ := Option.map_eq_some_iff.1 hi
        exact ⟨i, o, by simpa using hskip, hl⟩
  · rintro ⟨i, o, hskip, hl⟩
    obtain ⟨k, hk⟩ := (hv.joins (feeds_of_inputLink? hl)).target
    obtain ⟨node, hn, rfl⟩ := kind?_eq_some_iff.1 hk
    have hlt := hv.lt_length_of_inputLink? hn hl
    rw [sources, hn]
    exact mem_filterMap.2 ⟨i, mem_range.2 hlt, by simp [hskip, hl]⟩

/-- What feeds something is a node with outputs. -/
lemma Valid.exists_outputs (hv : net.Valid) (hl : net.inputLink? n i = some source) :
    ∃ k, net.kind? source.1 = some k ∧ k.outputs ≠ [] := by
  obtain ⟨_, _, hs, _, _⟩ := hv.joins (feeds_of_inputLink? hl)
  obtain ⟨k, x, hk, hx, _⟩ := outputType?_eq_some_iff.1 hs
  refine ⟨k, hk, fun h => ?_⟩
  rw [h] at hx
  cases hx

lemma Valid.exists_outputs_of_source (hv : net.Valid) (h : d ∈ net.sources skip n) :
    ∃ k, net.kind? d = some k ∧ k.outputs ≠ [] := by
  obtain ⟨i, o, _, hl⟩ := hv.mem_sources.1 h
  exact hv.exists_outputs hl

lemma lt_size_of_kind? {k : NodeKind} (hk : net.kind? n = some k) : n < net.nodes.size := by
  obtain ⟨node, hn, _⟩ := kind?_eq_some_iff.1 hk
  exact node?_eq_some_lt hn

/-- What an input depends on, if nothing was found before: every source is a node that can be
entered. -/
lemma Valid.mem_dependencies_iff (hv : net.Valid) {isDone : NodeId → Bool} {avoid : Option NodeId} :
    c ∈ net.dependencies skip isDone .empty n i avoid ↔
      ∃ d o, skip n i = false ∧ net.inputLink? n i = some (d, o) ∧
        Way (net.sources skip) (fun x => isDone x = false ∧ some x ≠ avoid) d c := by
  simp only [mem_dependencies, source?_eq_some_iff]
  constructor
  · rintro (h | ⟨d, ⟨hskip, o, hl⟩, w⟩)
    · exact absurd h (OrderedSet.not_mem_empty _)
    · exact ⟨d, o, hskip, hl, w.mono fun x hx => ⟨hx.2.1, hx.2.2.1⟩⟩
  · rintro ⟨d, o, hskip, hl, w⟩
    refine .inr ⟨d, ⟨hskip, o, hl⟩, ?_⟩
    have hlt : d < net.nodes.size := lt_size_of_kind? (hv.exists_outputs hl).choose_spec.1
    clear hl
    induction w with
    | here ha => exact .here ⟨hlt, ha.1, ha.2, OrderedSet.not_mem_empty _⟩
    | step ha hab _ ih =>
      exact .step ⟨hlt, ha.1, ha.2, OrderedSet.not_mem_empty _⟩ hab
        (ih (lt_size_of_kind? (hv.exists_outputs_of_source hab).choose_spec.1))

end Network

namespace SectionContext

variable {ctx : SectionContext} {n d a b c : NodeId} {i o : Nat} {k : NodeKind}
  {rank : NodeId → Nat} {m : NodeId × Side}

/-! ## Sources in a section -/

/-- The nodes that feed a node in the section. -/
abbrev sources (ctx : SectionContext) : NodeId → List NodeId := ctx.graph.net.sources ctx.skips

lemma link?_eq_some_iff {source : NodeId × Nat} : ctx.link? n i = some source ↔
    ctx.skips n i = false ∧ ctx.net.inputLink? n i = some source := by
  rw [link?]
  split
  · rename_i h
    simp [h]
  · rename_i h
    simp [h]

lemma lt_length_of_link? (hv : ctx.net.Valid) {node : Node}
    (hn : ctx.net.node? n = some node) (hl : ctx.link? n i = some (d, o)) :
    i < node.inputs.length :=
  hv.lt_length_of_inputLink? hn (link?_eq_some_iff.1 hl).2

lemma mem_sources (hv : ctx.net.Valid) :
    d ∈ ctx.sources n ↔ ∃ i o, ctx.link? n i = some (d, o) := by
  simp only [sources, hv.mem_sources, link?_eq_some_iff]

lemma rank_lt (hv : ctx.net.ValidBy rank) (h : d ∈ ctx.sources n) : rank d < rank n := by
  obtain ⟨i, o, hl⟩ := (mem_sources ⟨rank, hv⟩).1 h
  exact hv.ranked (feeds_of_inputLink? (link?_eq_some_iff.1 hl).2)

lemma rank_le {P : NodeId → Prop} (hv : ctx.net.ValidBy rank)
    (w : Way ctx.sources P a b) : rank b ≤ rank a := by
  induction w with
  | here _ => exact le_rfl
  | step _ hab _ ih => exact ih.trans (rank_lt hv hab).le

/-- A source is a node with outputs. -/
lemma kind?_source (hv : ctx.net.Valid) (h : d ∈ ctx.sources n) :
    ∃ k, ctx.net.kind? d = some k ∧ k ≠ .output := by
  obtain ⟨k, hk, hout⟩ := hv.exists_outputs_of_source h
  refine ⟨k, hk, ?_⟩
  rintro rfl
  exact hout rfl

/-! ## Closures -/

def Combines (ctx : SectionContext) (n : NodeId) : Prop :=
  ∃ k, ctx.graph.net.kind? n = some k ∧ k.special = .combineClosure

def IsLeaf (ctx : SectionContext) (n : NodeId) : Prop :=
  ∃ k, ctx.graph.net.kind? n = some k ∧ k.isClosure = true

/-- A mix or sum of nothing. -/
def Idle (ctx : SectionContext) (n : NodeId) : Prop :=
  ctx.Combines n ∧ ∀ side : Side, ctx.graph.net.inputLinkByName? n side.input = none

lemma IsLeaf.not_combines (h : ctx.IsLeaf n) : ¬ ctx.Combines n := by
  obtain ⟨k, hk, hc⟩ := h
  rintro ⟨k', hk', hc'⟩
  rw [hk] at hk'
  cases hk'
  obtain rfl | rfl := special_eq_combineClosure.1 hc' <;> cases hc

lemma IsLeaf.not_idle (h : ctx.IsLeaf n) : ¬ ctx.Idle n := fun hi => h.not_combines hi.1

lemma Combines.inputIndex (h : ctx.Combines n) (hv : ctx.net.Valid) (side : Side) :
    ∃ i, (∀ source, ctx.net.inputLinkByName? n side.input = some source ↔
      ctx.net.inputLink? n i = some source) ∧ ctx.net.inputType? (n, i) = some .closure := by
  obtain ⟨k, hk, hc⟩ := h
  obtain ⟨node, hn, rfl⟩ := kind?_eq_some_iff.1 hk
  have hidx : ∃ i, node.inputIndex? side.input = some i ∧
      ctx.net.inputType? (n, i) = some .closure := by
    rw [(hv.standard hn).inputIndex?]
    obtain hkind | hkind := special_eq_combineClosure.1 hc <;> cases side <;>
      simp only [inputType?, hk, hkind, Side.input] <;> exact ⟨_, rfl, rfl⟩
  obtain ⟨i, hi, ht⟩ := hidx
  refine ⟨i, fun source => ?_, ht⟩
  simp [inputLinkByName?, hn, hi]

/-- Inputs of a mix or sum that take closures are its sides. -/
lemma Combines.exists_side (h : ctx.Combines n) (hv : ctx.net.Valid)
    (ht : ctx.net.inputType? (n, i) = some .closure) :
    ∃ side : Side, ∀ source, ctx.net.inputLinkByName? n side.input = some source ↔
      ctx.net.inputLink? n i = some source := by
  obtain ⟨k, hk, hc⟩ := h
  obtain ⟨node, hn, rfl⟩ := kind?_eq_some_iff.1 hk
  have hidx : ∃ side : Side, node.inputIndex? side.input = some i := by
    simp only [(hv.standard hn).inputIndex?]
    obtain ⟨k', x, hk', hx, hty⟩ := inputType?_eq_some_iff.1 ht
    rw [hk] at hk'
    cases hk'
    obtain hkind | hkind := special_eq_combineClosure.1 hc
    · rw [hkind] at hx ⊢
      match i, hx with
      | 0, hx => cases hx; cases hty
      | 1, _ => exact ⟨.first, rfl⟩
      | 2, _ => exact ⟨.second, rfl⟩
    · rw [hkind] at hx ⊢
      match i, hx with
      | 0, _ => exact ⟨.first, rfl⟩
      | 1, _ => exact ⟨.second, rfl⟩
  obtain ⟨side, hside⟩ := hidx
  exact ⟨side, fun source => by simp [inputLinkByName?, hn, hside]⟩

/-- A kind with closures among its outputs. -/
lemma isClosure_or_combines_of_output {x : Output} (hx : x ∈ k.outputs) (ht : x.ty = .closure) :
    k.isClosure = true ∨ k.special = .combineClosure := by
  have key : (k.outputs.all fun o => o.ty != .closure || k.isClosure ||
      k.special == .combineClosure) = true := by cases k <;> rfl
  have := all_eq_true.1 key x hx
  simpa [ht] using this

/-- Closures come from closures. -/
lemma isLeaf_or_combines (hv : ctx.net.Valid) (hl : ctx.net.inputLink? n i = some (d, o))
    (ht : ctx.net.inputType? (n, i) = some .closure) : ctx.IsLeaf d ∨ ctx.Combines d := by
  obtain ⟨s, t, hs, ht', hst⟩ := hv.joins (feeds_of_inputLink? hl)
  rw [ht] at ht'
  cases ht'
  obtain ⟨k, x, hk, hx, rfl⟩ := outputType?_eq_some_iff.1 hs
  have hty : x.ty = .closure := by
    revert hst
    cases x.ty <;> decide
  exact (isClosure_or_combines_of_output (mem_of_getElem? hx) hty).imp
    (fun h => ⟨k, hk, h⟩) fun h => ⟨k, hk, h⟩

/-- Closures go to closures. -/
lemma inputType?_of_closure (hv : ctx.net.Valid)
    (hl : ctx.net.inputLink? n i = some (d, o)) (hd : ctx.IsLeaf d ∨ ctx.Combines d) :
    ctx.net.inputType? (n, i) = some .closure := by
  obtain ⟨s, t, hs, ht, hst⟩ := hv.joins (feeds_of_inputLink? hl)
  obtain ⟨k, x, hk, hx, rfl⟩ := outputType?_eq_some_iff.1 hs
  have hhandles : k.handlesClosures = true := by
    obtain ⟨k', hk', hc⟩ | ⟨k', hk', hc⟩ := hd <;> rw [hk] at hk' <;> cases hk'
    · exact handlesClosures_of_isClosure hc
    · rw [handlesClosures, hc]
      simp
  rw [ty_eq_closure_of_mem_outputs hhandles (mem_of_getElem? hx), SocketType.linksTo_closure] at hst
  rw [ht, hst]

/-- Only the links of bumps are ignored. -/
lemma skips_eq_false (hl : ctx.net.inputLink? n i = some (d, o))
    (hd : ctx.IsLeaf d ∨ ctx.Combines d) : ctx.skips n i = false := by
  have hspecial : ∃ node, ctx.net.node? d = some node ∧ node.kind.special ≠ .bump := by
    obtain ⟨k, hk, hc⟩ | ⟨k, hk, hc⟩ := hd <;>
      obtain ⟨node, hn, rfl⟩ := kind?_eq_some_iff.1 hk
    · exact ⟨node, hn, by cases h : node.kind <;> simp_all [isClosure, special]⟩
    · exact ⟨node, hn, by rw [hc]; decide⟩
  obtain ⟨node, hn, hne⟩ := hspecial
  simp [skips, hl, hn, hne]

/-- The closures that feed a mix or sum are those at its sides. -/
lemma Combines.mem_sources_iff (h : ctx.Combines n) (hv : ctx.net.Valid) :
    d ∈ ctx.sources n ∧ (ctx.IsLeaf d ∨ ctx.Combines d) ↔
      ∃ (side : Side) (o : Nat), ctx.net.inputLinkByName? n side.input = some (d, o) := by
  constructor
  · rintro ⟨hd, hc⟩
    obtain ⟨i, o, hl⟩ := (mem_sources hv).1 hd
    have hl' := (link?_eq_some_iff.1 hl).2
    obtain ⟨side, hside⟩ := h.exists_side hv (inputType?_of_closure hv hl' hc)
    exact ⟨side, o, (hside _).2 hl'⟩
  · rintro ⟨side, o, hl⟩
    obtain ⟨i, hi, ht⟩ := h.inputIndex hv side
    have hl' := (hi _).1 hl
    have hd := isLeaf_or_combines hv hl' ht
    exact ⟨(mem_sources hv).2 ⟨i, o, link?_eq_some_iff.2 ⟨skips_eq_false hl' hd, hl'⟩⟩, hd⟩

/-- A node that a closure feeds, and that something else reads, is a mix or sum. -/
lemma combines_of_source (hv : ctx.net.Valid) (hd : d ∈ ctx.sources n)
    (hc : ctx.IsLeaf d ∨ ctx.Combines d) (hn : ctx.net.kind? n ≠ some .output) :
    ctx.Combines n := by
  obtain ⟨i, o, hl⟩ := (mem_sources hv).1 hd
  have ht := inputType?_of_closure hv (link?_eq_some_iff.1 hl).2 hc
  obtain ⟨k, x, hk, hx, hty⟩ := inputType?_eq_some_iff.1 ht
  refine ⟨k, hk, ?_⟩
  have hno : k ≠ .output := by
    rintro rfl
    exact hn hk
  have key : (k.inputs.all fun i => i.ty != .closure || k.special == .combineClosure ||
      k == .output) = true := by cases k <;> rfl
  have := all_eq_true.1 key x (mem_of_getElem? hx)
  simpa [hty, hno] using this

/-! ## Ways and closure paths -/

variable {P : NodeId → Prop} {π : List (NodeId × Side)}

/-- A way up to a closure is a closure path. -/
lemma closurePath_of_way (hv : ctx.net.Valid) (w : Way ctx.sources P a c)
    (ha : ctx.net.kind? a ≠ some .output) (hc : ctx.IsLeaf c ∨ ctx.Combines c) :
    ∃ π, ctx.net.ClosurePath a π c ∧ ∀ m ∈ π, P m.1 := by
  induction w with
  | here _ => exact ⟨[], .here _, by simp⟩
  | @step a b c hPa hab w ih =>
    obtain ⟨kb, hkb, hne⟩ := kind?_source hv hab
    obtain ⟨π, hπ, hP⟩ := ih (by rw [hkb]; simpa using hne) hc
    have hb : ctx.IsLeaf b ∨ ctx.Combines b := by
      cases hπ with
      | here _ => exact hc
      | step hk hspecial _ _ => exact .inr ⟨_, hk, hspecial⟩
    have hcomb := combines_of_source hv hab hb ha
    obtain ⟨side, o, hl⟩ := (hcomb.mem_sources_iff hv).1 ⟨hab, hb⟩
    obtain ⟨k, hk, hspecial⟩ := hcomb
    refine ⟨(a, side) :: π, .step hk hspecial hl hπ, fun m hm => ?_⟩
    obtain rfl | hm := mem_cons.1 hm
    · exact hPa
    · exact hP m hm

lemma way_of_closurePath (hv : ctx.net.Valid) (h : ctx.net.ClosurePath a π c)
    (hP : ∀ m ∈ π, P m.1) (hc : P c) : Way ctx.sources P a c := by
  induction h with
  | here _ => exact .here hc
  | @step id source x k side output p hk hspecial hl _ ih =>
    have hcomb : ctx.Combines id := ⟨k, hk, hspecial⟩
    obtain ⟨hmem, _⟩ := (hcomb.mem_sources_iff hv).2 ⟨side, output, hl⟩
    exact .step (hP _ mem_cons_self) hmem (ih (fun m hm => hP m (mem_cons_of_mem _ hm)) hc)

/-- The nodes of a closure path to something else are not idle. -/
lemma not_idle_of_mem_closurePath (h : ctx.net.ClosurePath a π c)
    (hm : m ∈ π) : ¬ ctx.Idle m.1 := by
  induction h with
  | here _ => cases hm
  | @step id source x k side output p hk hspecial hl _ ih =>
    obtain rfl | hm := mem_cons.1 hm
    · intro hidle
      rw [hidle.2 side] at hl
      cases hl
    · exact ih hm

/-- Above a node that is no closure there are none. -/
lemma not_closure_of_way (hv : ctx.net.Valid) (hd : ¬ (ctx.IsLeaf d ∨ ctx.Combines d))
    (ho : ctx.net.kind? d ≠ some .output) (w : Way ctx.sources P d c) :
    ¬ (ctx.IsLeaf c ∨ ctx.Combines c) := by
  intro hc
  obtain ⟨π, hπ, _⟩ := closurePath_of_way hv w ho hc
  cases hπ with
  | here _ => exact hd hc
  | step hk hspecial _ _ => exact hd (.inr ⟨_, hk, hspecial⟩)

/-! ## Values -/

/-- What feeds an input that takes slots is no closure. -/
lemma not_closure_of_link? (hv : ctx.net.Valid) (hl : ctx.link? n i = some (d, o))
    (hs : ctx.inputSize (n, i) ≠ 0) : ¬ (ctx.IsLeaf d ∨ ctx.Combines d) := by
  intro hd
  rw [inputSize_eq hv, inputType?_of_closure hv (link?_eq_some_iff.1 hl).2 hd] at hs
  exact hs rfl

/-- A node of the section whose result can matter: some way up to it passes no idle mix or sum. -/
def OfUse (ctx : SectionContext) (root n : NodeId) : Prop :=
  n = ctx.graph.output ∨ Way ctx.sources (fun x => ¬ ctx.Idle x) root n

section

variable (hv : ctx.net.Valid)
include hv

/-- The mixes and sums of a closure path from the root are of use. -/
lemma ofUse_of_mem_closurePath (h : ctx.net.ClosurePath a π c) (hm : m ∈ π) : ctx.OfUse a m.1 := by
  refine .inr ?_
  induction h with
  | here _ => cases hm
  | @step id source x k side output p hk hspecial hl rest ih =>
    have hidle : ¬ ctx.Idle id :=
      not_idle_of_mem_closurePath (.step hk hspecial hl rest) mem_cons_self
    obtain rfl | hm := mem_cons.1 hm
    · exact .here hidle
    · have hcomb : ctx.Combines id := ⟨k, hk, hspecial⟩
      exact .step hidle ((hcomb.mem_sources_iff hv).2 ⟨side, output, hl⟩).1 (ih hm)

/-- The values that a node of use reads are of use. -/
lemma way_not_idle_of_link? {root : NodeId}
    (w : Way ctx.sources (fun x => ¬ ctx.Idle x) root n) (hl : ctx.link? n i = some (d, o))
    (hs : ctx.inputSize (n, i) ≠ 0) : Way ctx.sources (fun x => ¬ ctx.Idle x) root d :=
  w.snoc ((mem_sources hv).2 ⟨i, o, hl⟩) fun h => not_closure_of_link? hv hl hs (.inr h.1)

/-! ## Dependencies -/

lemma lt_size_of_source (h : d ∈ ctx.sources n) : d < ctx.net.nodes.size :=
  lt_size_of_kind? (hv.exists_outputs_of_source h).choose_spec.1

/-- What an input depends on, in the words of the section. -/
lemma mem_dependencies_iff {isDone : NodeId → Bool} {avoid : Option NodeId} :
    c ∈ ctx.net.dependencies ctx.skips isDone .empty n i avoid ↔
      ∃ d o, ctx.link? n i = some (d, o) ∧
        Way ctx.sources (fun x => isDone x = false ∧ some x ≠ avoid) d c := by
  simp only [hv.mem_dependencies_iff, link?_eq_some_iff, and_assoc]

/-! ## The first closures of a set -/

lemma mem_closureSources : d ∈ ctx.closureSources n ↔
    ∃ i o, ctx.net.inputType? (n, i) = some .closure ∧ ctx.net.inputLink? n i = some (d, o) := by
  unfold closureSources
  cases hn : ctx.net.node? n with
  | none =>
    constructor
    · simp
    · rintro ⟨i, o, ht, _⟩
      simp [inputType?, kind?, hn] at ht
  | some node =>
    simp only [mem_filterMap, hv.inputType?_eq hn]
    constructor
    · rintro ⟨⟨socket, i⟩, hmem, h⟩
      have hi : node.inputs[i]? = some socket := mem_zipIdx_iff_getElem?.1 hmem
      split at h
      · rename_i hty
        obtain ⟨⟨d', o⟩, hl, rfl⟩ := Option.map_eq_some_iff.1 h
        exact ⟨i, o, by rw [hi, Option.map_some, hty], hl⟩
      · cases h
    · rintro ⟨i, o, ht, hl⟩
      obtain ⟨socket, hi, hty⟩ := Option.map_eq_some_iff.1 ht
      exact ⟨(socket, i), mem_zipIdx_iff_getElem?.2 hi, by simp [hty, hl]⟩

end

lemma Combines.mem_closureSources_iff (h : ctx.Combines n) (hv : ctx.net.Valid) :
    d ∈ ctx.closureSources n ↔
      ∃ (side : Side) (o : Nat), ctx.net.inputLinkByName? n side.input = some (d, o) := by
  rw [mem_closureSources hv]
  constructor
  · rintro ⟨i, o, ht, hl⟩
    obtain ⟨side, hside⟩ := h.exists_side hv ht
    exact ⟨side, o, (hside _).2 hl⟩
  · rintro ⟨side, o, hl⟩
    obtain ⟨i, hi, ht⟩ := h.inputIndex hv side
    exact ⟨i, o, ht, (hi _).1 hl⟩

variable {shared : NodeSet} {starts : List NodeId}

lemma mem_sharedClosures : c ∈ ctx.sharedClosures shared starts ↔ c ∈ shared ∧
    ∃ x ∈ starts, Way (fun id => if shared.contains id then [] else ctx.closureSources id)
      (· ∈ range ctx.net.nodes.size) x c := by
  unfold sharedClosures
  rw [mem_filter, mem_reachable nodup_range, OrderedSet.contains_iff, and_comm]

/-- The first closures of a set are found along closure paths. -/
lemma exists_closurePath_of_mem_sharedClosures (hv : ctx.net.Valid)
    (hs : ∀ x ∈ starts, ctx.IsLeaf x ∨ ctx.Combines x)
    (hc : c ∈ ctx.sharedClosures shared starts) :
    c ∈ shared ∧ ∃ x ∈ starts, ∃ π, ctx.net.ClosurePath x π c := by
  obtain ⟨hmem, x, hx, w⟩ := mem_sharedClosures.1 hc
  refine ⟨hmem, x, hx, ?_⟩
  have hxc := hs x hx
  clear hx hs hc hmem
  induction w with
  | here _ => exact ⟨[], .here _⟩
  | @step a b c _ hab _ ih =>
    split at hab
    · cases hab
    · obtain ⟨i, o, ht, hl⟩ := (mem_closureSources hv).1 hab
      have hcomb : ctx.Combines a := by
        obtain ⟨k, hk, hleaf⟩ | hcomb := hxc
        · obtain ⟨k', y, hk', hy, hty⟩ := inputType?_eq_some_iff.1 ht
          rw [hk] at hk'
          cases hk'
          have key : (k.inputs.all fun i => i.ty != .closure || !k.isClosure) = true := by
            cases k <;> rfl
          have := all_eq_true.1 key y (mem_of_getElem? hy)
          simp [hty, hleaf] at this
        · exact hcomb
      obtain ⟨side, o', hside⟩ := (hcomb.mem_closureSources_iff hv).1 hab
      obtain ⟨π, hπ⟩ := ih (isLeaf_or_combines hv hl ht)
      obtain ⟨k, hk, hspecial⟩ := hcomb
      exact ⟨(a, side) :: π, .step hk hspecial hside hπ⟩

/-- A closure path into the set passes a first closure of the set. -/
lemma exists_mem_sharedClosures (hv : ctx.net.Valid) {x : NodeId} (hx : x ∈ starts)
    (hlt : x < ctx.net.nodes.size) (hπ : ctx.net.ClosurePath x π n) (hn : n ∈ shared) :
    ∃ c ∈ ctx.sharedClosures shared starts, ∃ π', ctx.net.ClosurePath c π' n := by
  -- The search from the start goes along the path as long as it has met no node of the set.
  have key : ∀ {y π}, ctx.net.ClosurePath y π n → y < ctx.net.nodes.size →
      Way (fun id => if shared.contains id then [] else ctx.closureSources id)
        (· ∈ range ctx.net.nodes.size) x y →
      ∃ c ∈ ctx.sharedClosures shared starts, ∃ π', ctx.net.ClosurePath c π' n := by
    intro y ρ hρ
    induction hρ with
    | here id =>
      intro _ w
      exact ⟨id, mem_sharedClosures.2 ⟨hn, x, hx, w⟩, [], .here _⟩
    | @step id source z k side output p hk hspecial hl rest ih =>
      intro hlt w
      by_cases hs : id ∈ shared
      · exact ⟨id, mem_sharedClosures.2 ⟨hs, x, hx, w⟩, _, .step hk hspecial hl rest⟩
      · have hcomb : ctx.Combines id := ⟨k, hk, hspecial⟩
        have hlt' := lt_size_of_source hv ((hcomb.mem_sources_iff hv).2 ⟨side, output, hl⟩).1
        refine ih hπ hn hlt' (w.snoc ?_ (mem_range.2 hlt'))
        rw [if_neg (by simpa using hs)]
        exact (hcomb.mem_closureSources_iff hv).2 ⟨side, output, hl⟩
  exact key hπ hlt (.here (mem_range.2 hlt))

end SectionContext

end Shading
