import Shading.Proofs.MixBranches

/-!
# The walk over closures

`ensures_visit` is the induction over the walk, on its fuel.  There is always fuel left, since no
closure path is longer than there are nodes.  A leaf is emitted after what it depends on.  A mix with
a linked factor first emits the factor, then everything that is used on both sides or outside the mix
as well, and then its sides behind their jumps; other mixes and sums emit their sides one after the
other.
-/

namespace Shading

open Emit SectionContext List Network OrderedSet

variable {ctx : SectionContext} {root n c d : NodeId} {T : List (Written × SlotRange)}
  {opens : List Nat} {busy : List NodeId} {G : Outline} {s s' : SectionState}
  {starts : NodeId → Prop} {node : Node} {fuel : Nat} {rank : NodeId → Nat}
  {π : List (NodeId × Side)}

/-! ## The inputs of a mix or sum -/

lemma linkedInput?_cases (hn : ctx.net.node? n = some node) (name : String) :
    ctx.linkedInput? n node name = none ∧ ctx.net.inputLinkByName? n name = none ∨
      ∃ i source, ctx.linkedInput? n node name = some i ∧ node.inputIndex? name = some i ∧
        ctx.net.inputLink? n i = some source ∧ ctx.net.inputLinkByName? n name = some source := by
  have hname : ctx.net.inputLinkByName? n name =
      (node.inputIndex? name).bind (ctx.net.inputLink? n) := by
    simp [inputLinkByName?, hn]
  rw [hname, linkedInput?]
  cases hi : node.inputIndex? name with
  | none => exact .inl ⟨rfl, rfl⟩
  | some i =>
    cases hl : ctx.net.inputLink? n i with
    | none => exact .inl ⟨by simp [isInputLinked, hl], hl⟩
    | some source => exact .inr ⟨i, source, by simp [isInputLinked, hl], rfl, hl, hl⟩

lemma mem_children (hn : ctx.net.node? n = some node) :
    c ∈ [ctx.linkedInput? n node "Closure1", ctx.linkedInput? n node "Closure2"].filterMap
      (fun input => input.bind fun i => (ctx.net.inputLink? n i).map Prod.fst) ↔
      ∃ (side : Side) (o : Nat), ctx.net.inputLinkByName? n side.input = some (c, o) := by
  have hside : ∀ side : Side, ((ctx.linkedInput? n node side.input).bind fun i =>
      (ctx.net.inputLink? n i).map Prod.fst) = some c ↔
      ∃ o, ctx.net.inputLinkByName? n side.input = some (c, o) := by
    intro side
    obtain ⟨h, hl⟩ | ⟨i, source, h, _, hi, hl⟩ := linkedInput?_cases hn side.input
    · simp [h, hl]
    · simp [h, hi, hl, Prod.ext_iff]
  rw [mem_filterMap]
  constructor
  · rintro ⟨_, hmem, h⟩
    simp only [mem_cons, not_mem_nil, or_false] at hmem
    obtain rfl | rfl := hmem
    · exact ⟨.first, (hside .first).1 h⟩
    · exact ⟨.second, (hside .second).1 h⟩
  · rintro ⟨side, h⟩
    refine ⟨_, ?_, (hside side).2 h⟩
    cases side <;> simp [Side.input]

namespace SectionContext.Combines

/-- Only mixes have a factor. -/
lemma factor (h : ctx.Combines n) (hv : ctx.net.Valid)
    (hn : ctx.net.node? n = some node) {i : Nat} (hi : node.inputIndex? "Fac" = some i) :
    ctx.net.kind? n = some .mixClosure ∧ i = 0 := by
  obtain ⟨k, hk, hc⟩ := h
  have hk' := kind?_of_node? hn
  rw [hk] at hk'
  cases hk'
  rw [(hv.standard hn).inputIndex?] at hi
  obtain hkind | hkind := special_eq_combineClosure.1 hc
  · rw [hkind] at hi hk
    exact ⟨hk, (Option.some.inj hi).symm⟩
  · rw [hkind] at hi
    cases hi

/-- The only value that feeds a mix or sum is the factor of a mix. -/
lemma link?_of_value (h : ctx.Combines n) (hv : ctx.net.Valid) (hd : d ∈ ctx.sources n)
    (hval : ¬ (ctx.IsLeaf d ∨ ctx.Combines d)) :
    ctx.net.kind? n = some .mixClosure ∧ ∃ o, ctx.link? n 0 = some (d, o) := by
  obtain ⟨k, hk, hc⟩ := h
  obtain ⟨i, o, hl⟩ := (mem_sources hv).1 hd
  have hl' := (link?_eq_some_iff.1 hl).2
  obtain ⟨_, t, _, ht, _⟩ := hv.joins (feeds_of_inputLink? hl')
  have hty : t ≠ .closure := by
    rintro rfl
    exact hval (isLeaf_or_combines hv hl' ht)
  obtain ⟨k', x, hk', hx, rfl⟩ := inputType?_eq_some_iff.1 ht
  rw [hk] at hk'
  cases hk'
  obtain rfl | rfl := special_eq_combineClosure.1 hc
  · match i, hx with
    | 0, _ => exact ⟨hk, o, hl⟩
    | 1, hx => cases hx; exact absurd rfl hty
    | 2, hx => cases hx; exact absurd rfl hty
  · match i, hx with
    | 0, hx => cases hx; exact absurd rfl hty
    | 1, hx => cases hx; exact absurd rfl hty

end SectionContext.Combines

/-! ## What the sides use -/

/-- What a side of a mix depends on that is not done. -/
lemma ensures_collectSide (hv : ctx.net.Valid) (hcomb : ctx.Combines n)
    (hn : ctx.net.node? n = some node) (side : Side) (s : SectionState) :
    Ensures (· = s) (ctx.collectSide n (ctx.linkedInput? n node side.input)) fun nodes s' =>
      (∃ phase, s' = { s with phase }) ∧ ∀ c, c ∈ nodes ↔
        ∃ d o, ctx.net.inputLinkByName? n side.input = some (d, o) ∧
          Way ctx.sources (· ∉ s.done) d c := by
  obtain ⟨h, hl⟩ | ⟨i, ⟨d, o⟩, h, _, hi, hl⟩ := linkedInput?_cases hn side.input
  · rw [h, hl]
    refine .pure ?_
    rintro _ rfl
    exact ⟨⟨_, rfl⟩, fun c => by simp [not_mem_empty]⟩
  · rw [h, hl]
    refine (ensures_collect hv i none s).post ?_
    rintro nodes _ ⟨rfl, hnodes⟩
    have hd := ((hcomb.mem_sources_iff hv).2 ⟨side, o, hl⟩).2
    have hlink : ctx.link? n i = some (d, o) := link?_eq_some_iff.2 ⟨skips_eq_false hi hd, hi⟩
    exact ⟨⟨_, rfl⟩, fun c => by rw [hnodes, hlink]; simp⟩

section Shared

variable {side1 side2 shared : NodeSet}

/-- What the sides share with some inputs of the root, outside the mix. -/
lemma ensures_outside (hv : ctx.net.Valid) (l : List Nat) (shared : NodeSet) (s : SectionState) :
    Ensures (· = s) (l.foldlM (fun shared input => do
      let outside ← ctx.collect root input (some n)
      return (shared.union (outside.inter side1)).union (outside.inter side2)) shared)
      fun shared' s' => (∃ phase, s' = { s with phase }) ∧ ∀ c, c ∈ shared' ↔ c ∈ shared ∨
        (∃ i ∈ l, ∃ d o, ctx.link? root i = some (d, o) ∧
          Way ctx.sources (fun y => y ∉ s.done ∧ y ≠ n) d c) ∧ (c ∈ side1 ∨ c ∈ side2) := by
  induction l generalizing shared s with
  | nil =>
    refine .pure ?_
    rintro _ rfl
    exact ⟨⟨_, rfl⟩, by simp⟩
  | cons i l ih =>
    rw [foldlM_cons, bind_assoc]
    refine (ensures_collect hv i (some n) s).bind fun outside => .each ?_
    rintro _ ⟨rfl, houtside⟩
    refine .pure_bind ((ih _ _).post ?_)
    rintro shared' _ ⟨⟨phase, rfl⟩, hshared⟩
    refine ⟨⟨phase, rfl⟩, fun c => ?_⟩
    rw [hshared, mem_union, mem_union, mem_inter, mem_inter, houtside]
    simp only [mem_cons, Option.some.injEq, ne_eq]
    constructor
    · rintro (((h | ⟨h, h1⟩) | ⟨h, h2⟩) | ⟨⟨i', hi', h⟩, hs⟩)
      · exact .inl h
      · exact .inr ⟨⟨i, .inl rfl, h⟩, .inl h1⟩
      · exact .inr ⟨⟨i, .inl rfl, h⟩, .inr h2⟩
      · exact .inr ⟨⟨i', .inr hi', h⟩, hs⟩
    · rintro (h | ⟨⟨i', rfl | hi', h⟩, h1 | h2⟩)
      · exact .inl (.inl (.inl h))
      · exact .inl (.inl (.inr ⟨h, h1⟩))
      · exact .inl (.inr ⟨h, h2⟩)
      · exact .inr ⟨⟨i', hi', h⟩, .inl h1⟩
      · exact .inr ⟨⟨i', hi', h⟩, .inr h2⟩

/-- What both sides use, and what a side uses that is used outside the mix. -/
lemma ensures_sharedNodes (hr : ctx.Rooted root) (side1 side2 : NodeSet) (s : SectionState) :
    Ensures (· = s) (ctx.sharedNodes root n side1 side2) fun shared s' =>
      (∃ phase, s' = { s with phase }) ∧ ∀ c, c ∈ shared ↔ c ∈ side1 ∧ c ∈ side2 ∨
        (root ≠ n ∧ ∃ x ∈ ctx.sources root,
          Way ctx.sources (fun y => y ∉ s.done ∧ y ≠ n) x c) ∧ (c ∈ side1 ∨ c ∈ side2) := by
  refine .ite (fun e => .pure ?_) fun hne => ?_
  · rintro _ rfl
    exact ⟨⟨_, rfl⟩, fun c => by simp [mem_inter, e]⟩
  · obtain ⟨k, hk, _⟩ := hr.root
    obtain ⟨node, hnode, rfl⟩ := kind?_eq_some_iff.1 hk
    refine (ensures_ofGraph (Graph.require_eq_ok_iff.2 hnode)).bind_eq ?_
    refine (ensures_outside hr.valid _ _ s).post ?_
    rintro shared s' ⟨hphase, hshared⟩
    refine ⟨hphase, fun c => ?_⟩
    rw [hshared, mem_inter]
    refine or_congr_right (and_congr_left fun _ => ?_)
    constructor
    · rintro ⟨i, _, d, o, hl, w⟩
      exact ⟨hne, d, (mem_sources hr.valid).2 ⟨i, o, hl⟩, w⟩
    · rintro ⟨_, d, hd, w⟩
      obtain ⟨i, o, hl⟩ := (mem_sources hr.valid).1 hd
      exact ⟨i, mem_range.2 (lt_length_of_link? hr.valid hnode hl), d, o, hl, w⟩

/-- What is to be emitted before both sides of a mix.  `D` are the nodes that were done when the sides
were looked at. -/
structure Shares (ctx : SectionContext) (root n : NodeId) (D shared : NodeSet) : Prop where
  parted : Parted ctx root n D shared
  used : ∀ c ∈ shared, ∃ (side : Side) (d : NodeId) (o : Nat),
    ctx.graph.net.inputLinkByName? n side.input = some (d, o) ∧ Way ctx.sources (· ∉ D) d c
  closed : ∀ c ∈ shared, ∀ d ∈ ctx.sources c, d ∈ D ∨ d ∈ shared

/-- The shared nodes in terms of the sides. -/
lemma shares_of_sides (hv : ctx.net.Valid) (hcomb : ctx.Combines n) {D : NodeSet}
    (sides : Side → NodeSet) (hsides : ∀ side c, c ∈ sides side ↔
      ∃ d o, ctx.net.inputLinkByName? n side.input = some (d, o) ∧ Way ctx.sources (· ∉ D) d c)
    (hshared : ∀ c, c ∈ shared ↔ c ∈ sides .first ∧ c ∈ sides .second ∨
      (root ≠ n ∧ ∃ x ∈ ctx.sources root, Way ctx.sources (fun y => y ∉ D ∧ y ≠ n) x c) ∧
        (c ∈ sides .first ∨ c ∈ sides .second)) : Shares ctx root n D shared := by
  have hor : ∀ {c}, c ∈ sides .first ∨ c ∈ sides .second ↔ ∃ side, c ∈ sides side := by
    intro c
    refine ⟨fun h => h.elim (fun h => ⟨_, h⟩) fun h => ⟨_, h⟩, ?_⟩
    rintro ⟨_ | _, h⟩
    · exact .inl h
    · exact .inr h
  -- What a node on a side reads is on that side, and it is not the mix.
  have hstep : ∀ {side c d}, c ∈ sides side → d ∈ ctx.sources c → d ∉ D → d ∈ sides side ∧ d ≠ n := by
    intro side c d hc hd hdD
    obtain ⟨x, o, hl, w⟩ := (hsides side c).1 hc
    have hx := ((hcomb.mem_sources_iff hv).2 ⟨side, o, hl⟩).1
    have w' : Way ctx.sources (· ∉ D) x d := w.snoc hd hdD
    refine ⟨(hsides side d).2 ⟨x, o, hl, w'⟩, ?_⟩
    rintro rfl
    obtain ⟨rank, hv⟩ := hv
    have := rank_lt hv hx
    have := rank_le hv w'
    omega
  refine ⟨⟨?_, ?_⟩, fun c hc => ?_, fun c hc d hd => or_iff_not_imp_left.2 fun hdD => ?_⟩
  · intro side side' d d' o o' c hne hl hl' w w'
    have h := (hsides side c).2 ⟨d, o, hl, w⟩
    have h' := (hsides side' c).2 ⟨d', o', hl', w'⟩
    refine (hshared c).2 (.inl ?_)
    cases side <;> cases side'
    · exact absurd rfl hne
    · exact ⟨h, h'⟩
    · exact ⟨h', h⟩
    · exact absurd rfl hne
  · intro side d o x c hl w hne hx v
    exact (hshared c).2 (.inr ⟨⟨hne, x, hx, v⟩, hor.2 ⟨side, (hsides side c).2 ⟨d, o, hl, w⟩⟩⟩)
  · have hside : ∃ side, c ∈ sides side := by
      obtain h | h := (hshared c).1 hc
      · exact ⟨_, h.1⟩
      · exact hor.1 h.2
    obtain ⟨side, hside⟩ := hside
    exact ⟨side, (hsides side c).1 hside⟩
  · obtain ⟨h, h'⟩ | ⟨⟨hne, x, hx, w⟩, h⟩ := (hshared c).1 hc
    · exact (hshared d).2 (.inl ⟨(hstep h hd hdD).1, (hstep h' hd hdD).1⟩)
    · obtain ⟨side, h⟩ := hor.1 h
      obtain ⟨hdside, hdn⟩ := hstep h hd hdD
      exact (hshared d).2 (.inr ⟨⟨hne, x, hx, w.snoc hd ⟨hdD, hdn⟩⟩, hor.2 ⟨side, hdside⟩⟩)

end Shared

/-! ## Single closures -/

lemma Onward.of_mark {G' : Outline}
    (h : Onward ctx starts G { s with closureDone := s.closureDone.insert n } G' s') :
    Onward ctx starts G s G' s' :=
  ⟨h.lines, h.done, fun m hm => h.begun m (mem_insert.2 (.inl hm)), h.fresh⟩

lemma ensures_visit_plain (hr : ctx.Rooted root) (h : Walk ctx root T opens busy G s)
    (hc : ¬ ctx.Combines n) (hup : Way ctx.sources (fun _ => True) root n) (hn : n ∉ s.done)
    (hb : n ∉ s.closureDone) :
    Ensures (· = s) (ctx.visit root (fuel + 1) n) fun _ => Visited ctx root T opens busy n G s := by
  obtain ⟨k, hk, _⟩ := hr.exists_kind? hup
  obtain ⟨node, hnode, rfl⟩ := kind?_eq_some_iff.1 hk
  refine .get_bind ?_
  rintro s rfl
  refine .ite (fun h => absurd (contains_iff.1 h) hb) fun _ => ?_
  refine (ensures_ofGraph (Graph.require_eq_ok_iff.2 hnode)).bind_eq ?_
  refine .ite (fun _ => ?_) fun hs => absurd ⟨_, hk, not_not.1 hs⟩ hc
  refine Triple.bind (.modify ?_) fun _ => (ensures_generateClosure hr
    (h.mark n) hnode hc hup hn (mem_insert.2 (.inr rfl))).bind fun _ => .modify ?_
  · rintro _ rfl
    rfl
  rintro t ⟨⟨G', hwalk, hon⟩, hmem⟩
  rw [OrderedSet.insert_of_mem hmem]
  exact ⟨⟨G', hwalk.unmark hmem, hon.of_mark⟩, .inl hmem⟩

lemma ensures_finish (hr : ctx.Rooted root) (h : Walk ctx root T opens (n :: busy) G s)
    (hc : ctx.Combines n) (hup : Way ctx.sources (fun _ => True) root n) (hn : n ∉ s.done)
    (hb : n ∈ s.closureDone) (hsrc : ∀ d ∈ ctx.sources n, d ∈ s.done ∨ ctx.Idle d) :
    Ensures (· = s) (ctx.finish n) fun _ s' => Walk ctx root T opens busy G s' ∧
      s'.done = s.done.insert n ∧ s'.closureDone = s.closureDone := by
  have hmem : n ∈ s.done.insert n := mem_insert.2 (.inr rfl)
  have heffects : closureEffects ctx n = [] := by
    rw [closureEffects, if_neg]
    intro hk
    obtain ⟨k, hkind, hcl⟩ := (Option.any_eq_true ..).1 hk
    exact IsLeaf.not_combines ⟨k, hkind, hcl⟩ hc
  have hgrown : Grown (nextJob ctx (ctx.OfUse root) G s n) (closureEffects ctx n) G := by
    rw [heffects]
    exact ⟨[], (Outline.grow_nil G).symm, by simp, rfl⟩
  -- Nothing reads a combination of closures from slots.
  have hwanted : ctx.wanted (s.done.insert n) ⊆ ctx.wanted s.done := by
    rintro ⟨a, o⟩ ⟨ha, m, i, hm, hl, hsize⟩
    refine ⟨(mem_insert.1 ha).resolve_right ?_, m, i,
      fun hm' => hm (mem_insert.2 (.inl hm')), hl, hsize⟩
    rintro rfl
    exact not_closure_of_link? hr.valid hl hsize (.inr hc)
  have hwalk : Walk ctx root T opens (n :: busy) G { s with done := s.done.insert n } :=
    h.node hgrown (h.settled.congr rfl rfl rfl rfl
      (fun m hm => mem_insert.2 (.inl hm)) hwanted) h.weight rfl rfl hn hsrc hup fun _ => hb
  refine Triple.bind (.modify ?_) fun _ => ensures_clearUsers ?_
  · rintro _ rfl
    exact ⟨hwalk.unmark hmem, rfl, rfl⟩
  · rintro t t' ⟨ht, hd, hcd⟩ hclear
    have hsettled := ht.settled.clear (hd ▸ hmem) hclear
    obtain ⟨_, _, _, _, _, _, _, _, _, rfl⟩ := hclear
    exact ⟨ht.congr hsettled rfl rfl rfl, hd, hcd⟩

/-! ## The induction -/

/-- Fuel for what lies upstream of a node. -/
def Fueled (ctx : SectionContext) (root : NodeId) (fuel : Nat) (c : NodeId) : Prop :=
  ∃ π, ctx.graph.net.ClosurePath root π c ∧ ctx.graph.net.nodeCount + 1 ≤ fuel + π.length

lemma Fueled.way (h : Fueled ctx root fuel c) (hv : ctx.net.Valid) :
    Way ctx.sources (fun _ => True) root c := by
  obtain ⟨π, hπ, _⟩ := h
  exact way_of_closurePath hv hπ (fun _ _ => trivial) trivial

/-- Going up takes fuel, and the path gets longer. -/
lemma Fueled.step (h : Fueled ctx root (fuel + 1) n) (hcomb : ctx.Combines n) {side : Side} {o : Nat}
    (hl : ctx.net.inputLinkByName? n side.input = some (d, o)) {π' : List (NodeId × Side)}
    (hπ' : ctx.net.ClosurePath d π' c) : Fueled ctx root fuel c := by
  obtain ⟨π, hπ, hlen⟩ := h
  obtain ⟨k, hk, hs⟩ := hcomb
  refine ⟨_, hπ.append (.step hk hs hl hπ'), ?_⟩
  rw [length_append, length_cons]
  omega

/-- What walking to a closure with the given fuel does. -/
def Visits (ctx : SectionContext) (root : NodeId) (rank : NodeId → Nat) (fuel : Nat) : Prop :=
  ∀ {c opens busy G s}, Fueled ctx root fuel c → ctx.IsLeaf c ∨ ctx.Combines c →
    (∀ m ∈ busy, rank c < rank m) → Walk ctx root [] opens busy G s →
      Ensures (· = s) (ctx.visit root fuel c) fun _ => Visited ctx root [] opens busy c G s

lemma ensures_visits (hvisit : Visits ctx root rank fuel)
    (h : Later ctx root [] opens busy starts G s s') {l : List NodeId}
    (hl : ∀ c ∈ l, Fueled ctx root fuel c ∧ (ctx.IsLeaf c ∨ ctx.Combines c) ∧
      (∀ m ∈ busy, rank c < rank m) ∧
        (c ∉ s'.done → ∃ y, starts y ∧ Way ctx.sources (· ∉ s.done) y c)) :
    Ensures (· = s') (l.forM fun c => ctx.visit root fuel c) fun _ s'' =>
      Later ctx root [] opens busy starts G s s'' ∧ (∀ c ∈ l, c ∈ s''.done ∨ ctx.Idle c) ∧
        ∀ m ∈ s'.done, m ∈ s''.done := by
  refine .pre ?_ ((Triple.forM_rest (I := fun rest t => Later ctx root [] opens busy starts G s t ∧
    (∀ c ∈ rest, c ∈ l) ∧ (∀ c ∈ l, c ∈ rest ∨ c ∈ t.done ∨ ctx.Idle c) ∧
      ∀ m ∈ s'.done, m ∈ t.done) (fun c rest => .each ?_) l).post ?_)
  · rintro _ rfl
    exact ⟨h, fun _ h => h, fun _ h => .inl h, fun _ h => h⟩
  · rintro t ⟨⟨G', hwalk, hon⟩, hsub, hall, hmono⟩
    obtain ⟨hfuel, hc, hbusy, hstart⟩ := hl c (hsub c mem_cons_self)
    refine (hvisit hfuel hc hbusy hwalk).post ?_
    rintro _ t' ⟨⟨G'', hwalk', hon'⟩, hdone⟩
    refine ⟨⟨G'', hwalk', hon.trans hon' ?_⟩, fun x hx => hsub x (mem_cons_of_mem _ hx),
      fun x hx => ?_, fun m hm => hon'.done m (hmono m hm)⟩
    · rintro _ rfl hx
      exact hstart fun hs => hx (hmono _ hs)
    · obtain hx | hx := hall x hx
      · obtain rfl | hx := mem_cons.1 hx
        · exact .inr hdone
        · exact .inl hx
      · exact .inr (hx.imp_left (hon'.done x))
  · rintro _ t ⟨ht, _, hall, hmono⟩
    exact ⟨ht, fun c hc => (hall c hc).resolve_left not_mem_nil, hmono⟩

/-- Closures above a closure that is done are done, unless they are idle. -/
lemma Walk.done_of_closurePath (h : Walk ctx root T opens busy G s) (hv : ctx.net.Valid)
    (hπ : ctx.net.ClosurePath c π d)
    (hc : c ∈ s.done ∨ ctx.Idle c) : d ∈ s.done ∨ ctx.Idle d := by
  induction hπ with
  | here => exact hc
  | @step id source x k side output p hk hspecial hl _ ih =>
    obtain hd | hidle := hc
    · have hcomb : ctx.Combines id := ⟨k, hk, hspecial⟩
      exact ih (h.closed id hd source ((hcomb.mem_sources_iff hv).2 ⟨side, output, hl⟩).1)
    · rw [hidle.2 side] at hl
      cases hl

lemma isLeaf_or_combines_of_closurePath (hv : ctx.net.Valid)
    (hπ : ctx.net.ClosurePath c π d) (hc : ctx.IsLeaf c ∨ ctx.Combines c) :
    ctx.IsLeaf d ∨ ctx.Combines d := by
  induction hπ with
  | here => exact hc
  | @step id source x k side output p hk hspecial hl _ ih =>
    have hcomb : ctx.Combines id := ⟨k, hk, hspecial⟩
    exact ih ((hcomb.mem_sources_iff hv).2 ⟨side, output, hl⟩).2

section Mix

variable (hr : ctx.Rooted root) (hv : ctx.net.ValidBy rank) (hvisit : Visits ctx root rank fuel)
  (hcomb : ctx.Combines n) (hfuel : Fueled ctx root (fuel + 1) n) (hbusy : ∀ m ∈ busy, rank n < rank m)

include hr hv hcomb hfuel hbusy

/-- The walk can be sent to closures above the node. -/
lemma visits_above {side : Side} {o : Nat}
    (hl : ctx.net.inputLinkByName? n side.input = some (d, o))
    (hπ : ctx.net.ClosurePath d π c) : Fueled ctx root fuel c ∧
      (ctx.IsLeaf c ∨ ctx.Combines c) ∧ ∀ m ∈ n :: busy, rank c < rank m := by
  obtain ⟨hd, hclosure⟩ := (hcomb.mem_sources_iff hr.valid).2 ⟨side, o, hl⟩
  have hlt : rank c < rank n := (rank_le hv (way_of_closurePath (P := fun _ => True) hr.valid hπ
    (fun _ _ => trivial) trivial)).trans_lt (rank_lt hv hd)
  refine ⟨hfuel.step hcomb hl hπ, isLeaf_or_combines_of_closurePath hr.valid hπ hclosure,
    forall_mem_cons.2 ⟨hlt, fun m hm => hlt.trans (hbusy m hm)⟩⟩

include hvisit

/-- What has to stand before both sides of a mix. -/
lemma ensures_emitShared (h : Later ctx root [] opens (n :: busy) (· ∈ ctx.sources n) G s s')
    {children : List NodeId} (hchildren : ∀ c, c ∈ children ↔
      ∃ (side : Side) (o : Nat), ctx.net.inputLinkByName? n side.input = some (c, o))
    {shared : NodeSet} (hshared : Shares ctx root n s'.done shared) :
    Ensures (· = s') (do
      (ctx.sharedClosures shared children).forM fun c => ctx.visit root fuel c
      ctx.emitSet shared) fun _ s'' =>
      Later ctx root [] opens (n :: busy) (· ∈ ctx.sources n) G s s'' ∧
        (∀ c ∈ shared, c ∈ s''.done) ∧ ∀ m ∈ s'.done, m ∈ s''.done := by
  have hup := hfuel.way hr.valid
  have hchild : ∀ x ∈ children, x ∈ ctx.sources n ∧ (ctx.IsLeaf x ∨ ctx.Combines x) := fun x hx =>
    (hcomb.mem_sources_iff hr.valid).2 ((hchildren x).1 hx)
  have hway : ∀ c ∈ shared, ∃ y ∈ ctx.sources n, y ∈ children ∧ Way ctx.sources (· ∉ s'.done) y c := by
    intro c hc
    obtain ⟨side, d, o, hl, w⟩ := hshared.used c hc
    have hd := (hchildren d).2 ⟨side, o, hl⟩
    exact ⟨d, (hchild d hd).1, hd, w⟩
  obtain ⟨_, _, hon⟩ := id h
  have hstart : ∀ c ∈ shared, ∃ y, y ∈ ctx.sources n ∧ Way ctx.sources (· ∉ s.done) y c := by
    intro c hc
    obtain ⟨y, hy, _, w⟩ := hway c hc
    exact ⟨y, hy, w.mono fun x hx hs => hx (hon.done x hs)⟩
  refine (ensures_visits hvisit h fun c hc => ?_).bind fun _ => .each ?_
  · obtain ⟨hcs, x, hx, π, hπ⟩ := exists_closurePath_of_mem_sharedClosures hr.valid
      (fun x hx => (hchild x hx).2) hc
    obtain ⟨side, o, hl⟩ := (hchildren x).1 hx
    obtain ⟨hf, hclosure, hrank⟩ := visits_above hr hv hcomb hfuel hbusy hl hπ
    exact ⟨hf, hclosure, hrank, fun _ => hstart c hcs⟩
  · rintro t ⟨ht, hall, hmono⟩
    obtain ⟨_, hwalk, _⟩ := id ht
    refine (ensures_emitSet hr ht (fun c hc hct => ?_) fun c hc d hd => ?_).post ?_
    · obtain ⟨y, hy, hychild, w⟩ := hway c hc
      refine ⟨(hup.snoc hy trivial).trans (w.mono fun _ _ => trivial), hstart c hc, fun hclosure => ?_⟩
      -- A closure in the set lies above one that was walked to.
      obtain ⟨k, hk, hne⟩ := kind?_source hr.valid hy
      obtain ⟨π, hπ, _⟩ := closurePath_of_way hr.valid w (by rw [hk]; simpa using hne)
        (hclosure.imp_right And.left)
      obtain ⟨x, hx, π', hπ'⟩ := exists_mem_sharedClosures hr.valid hychild
        (lt_size_of_source hr.valid hy) hπ hc
      obtain hd | hidle := hwalk.done_of_closurePath hr.valid hπ' (hall x hx)
      · exact hct hd
      · exact hclosure.elim (fun hleaf => hleaf.not_idle hidle) fun h => h.2 hidle
    · exact (hshared.closed c hc d hd).imp_left (hmono d)
    · rintro _ t' ⟨ht', hall', hmono'⟩
      exact ⟨ht', hall', fun m hm => hmono' m (hmono m hm)⟩

omit hv hvisit hbusy in
lemma ensures_finish_later (hn : n ∉ s.done)
    (h : Later ctx root [] opens (n :: busy) (· ∈ ctx.sources n) G
      { s with closureDone := s.closureDone.insert n } s')
    (hsrc : ∀ d ∈ ctx.sources n, d ∈ s'.done ∨ ctx.Idle d) :
    Ensures (· = s') (ctx.finish n) fun _ => Visited ctx root [] opens busy n G s := by
  obtain ⟨G', hwalk, hon⟩ := h
  have hn' := hon.not_done hr.valid hn
  have hb : n ∈ s'.closureDone := hon.begun n (mem_insert.2 (.inr rfl))
  refine (ensures_finish hr hwalk hcomb (hfuel.way hr.valid) hn' hb hsrc).post ?_
  rintro _ t ⟨ht, hd, hcd⟩
  have hgrown : Grown (nextJob ctx (ctx.OfUse root) G' s' n) [] G' :=
    ⟨[], (Outline.grow_nil G').symm, by simp, rfl⟩
  refine ⟨⟨G', ht, ((hon.enter hn).node hgrown hd hcd hn' ⟨n, rfl, .here hn⟩).of_mark⟩, .inl ?_⟩
  rw [hd]
  exact mem_insert.2 (.inr rfl)

/-- The sides of a mix with a linked factor, after everything that has to stand before them. -/
lemma ensures_sides (hn : n ∉ s.done) (h : Later ctx root [] opens (n :: busy) (· ∈ ctx.sources n) G
      { s with closureDone := s.closureDone.insert n } s')
    (hnode : ctx.net.node? n = some node) (hk : ctx.net.kind? n = some .mixClosure)
    {source : NodeId × Nat} (hl : ctx.link? n 0 = some source)
    (hvals : ∀ d ∈ ctx.sources n, ¬ (ctx.IsLeaf d ∨ ctx.Combines d) → d ∈ s'.done) {D : NodeSet}
    (hD : ∀ x ∈ D, x ∈ s'.done) (hp : Parted ctx root n D s'.done) :
    Ensures (· = s') (do
      for (side, jump) in [(ctx.linkedInput? n node "Closure1", Opcode.jumpIfOne),
          (ctx.linkedInput? n node "Closure2", Opcode.jumpIfZero)] do
        if let some input := side then
          let slot ← ctx.assignInputAt n 0
          let position := (← get).code.size
          op jump 0 (slotWord slot) 0
          if let some c := (ctx.net.inputLink? n input).map Prod.fst then ctx.visit root fuel c
          patchJump position
      modify fun s => { s with inputSlots := s.inputSlots.erase (n, 0) }
      ctx.finish n) fun _ => Visited ctx root [] opens busy n G s := by
  have hjump : ∀ {side side' : Side}, side.jump = side'.jump → side = side' := by
    rintro (_ | _) (_ | _) h <;> first | rfl | cases h
  -- The sides that are left when the loop has come to some point.
  refine Triple.bind (.pre ?_ (Triple.forIn_rest (I := fun rest t =>
    Later ctx root [] opens (n :: busy) (· ∈ ctx.sources n) G
      { s with closureDone := s.closureDone.insert n } t ∧
    (∀ a ∈ rest, ∃ side : Side, a = (ctx.linkedInput? n node side.input, side.jump)) ∧
    (∀ (side : Side) c o, ctx.net.inputLinkByName? n side.input = some (c, o) →
      (ctx.linkedInput? n node side.input, side.jump) ∈ rest ∨ c ∈ t.done ∨ ctx.Idle c) ∧
    ∀ m ∈ s'.done, m ∈ t.done) (fun a rest => .each ?_) _)) fun _ => ?_
  · rintro _ rfl
    refine ⟨h, fun a ha => ?_, fun side c o _ => .inl ?_, fun _ h => h⟩
    · simp only [mem_cons, not_mem_nil, or_false] at ha
      obtain rfl | rfl := ha
      · exact ⟨.first, rfl⟩
      · exact ⟨.second, rfl⟩
    · cases side <;> simp [Side.input, Side.jump]
  · rintro t ⟨⟨G', hwalk, hon⟩, hsides, hall, hmono⟩
    obtain ⟨side, rfl⟩ := hsides a mem_cons_self
    have hrest := fun a ha => hsides a (mem_cons_of_mem _ ha)
    obtain ⟨hnone, hlink⟩ | ⟨i, ⟨c, o⟩, hsome, _, hi, hlink⟩ := linkedInput?_cases hnode side.input
    · rw [hnone]
      refine .pure ?_
      rintro _ rfl
      refine ⟨rfl, ⟨G', hwalk, hon⟩, hrest, fun side' c o hl' => ?_, hmono⟩
      obtain hmem | hc := hall side' c o hl'
      · obtain e | hmem := mem_cons.1 hmem
        · obtain rfl := hjump (Prod.mk.inj e).2
          rw [hlink] at hl'
          cases hl'
        · exact .inl hmem
      · exact .inr hc
    · rw [hsome]
      dsimp only
      rw [hi]
      obtain ⟨hf, hclosure, hrank⟩ := visits_above hr hv hcomb hfuel hbusy hlink (.here c)
      have hbranch := ensures_branch hr hwalk hk hl hlink (hp.mono hmono)
        (fun x hx => hmono x (hD x hx)) (fun d hd hval => hmono d (hvals d hd hval))
        (hfuel.way hr.valid) (hon.not_done hr.valid hn) fun hw => hvisit hf hclosure hrank hw
      have hyield := hbranch.bind fun _ =>
        .pure (Q := fun r u => r = ForInStep.yield PUnit.unit ∧
          Visited ctx root [] opens (n :: busy) c G' t u) fun u hu => ⟨rfl, hu⟩
      simp only [bind_assoc] at hyield
      refine Triple.post hyield ?_
      rintro r u ⟨rfl, ⟨G'', hwalk', hon'⟩, hc⟩
      have hsrc := ((hcomb.mem_sources_iff hr.valid).2 ⟨side, o, hlink⟩).1
      refine ⟨rfl, ⟨G'', hwalk', hon.trans hon' ?_⟩, hrest, fun side' c' o' hl' => ?_,
        fun m hm => hon'.done m (hmono m hm)⟩
      · rintro _ rfl hx
        exact ⟨_, hsrc, .here fun hs => hx (hon.done _ hs)⟩
      · obtain hmem | hc' := hall side' c' o' hl'
        · obtain e | hmem := mem_cons.1 hmem
          · obtain rfl := hjump (Prod.mk.inj e).2
            rw [hlink] at hl'
            cases hl'
            exact .inr hc
          · exact .inl hmem
        · exact .inr (hc'.imp_left (hon'.done c'))
  · refine Triple.bind (.modify (Q := fun _ t =>
      Later ctx root [] opens (n :: busy) (· ∈ ctx.sources n) G
        { s with closureDone := s.closureDone.insert n } t ∧
      ∀ d ∈ ctx.sources n, d ∈ t.done ∨ ctx.Idle d) ?_) fun _ => .each fun t ht =>
        ensures_finish_later hr hcomb hfuel hn ht.1 ht.2
    rintro t ⟨⟨G', hwalk, hon⟩, _, hall, hmono⟩
    refine ⟨⟨G', hwalk.congr (hwalk.settled.forget SlotTable.erase_sublist) rfl rfl rfl,
      hon.congr rfl rfl fun _ h => h⟩, fun d hd => ?_⟩
    by_cases hclosure : ctx.IsLeaf d ∨ ctx.Combines d
    · obtain ⟨side, o, hlink⟩ := (hcomb.mem_sources_iff hr.valid).1 ⟨hd, hclosure⟩
      exact (hall side d o hlink).resolve_left not_mem_nil
    · exact .inl (hmono d (hvals d hd hclosure))

lemma ensures_visit_combine (hskip : ∀ m i, ctx.skips m i = false)
    (h : Walk ctx root [] opens busy G s) (hb : n ∉ s.closureDone) :
    Ensures (· = s) (ctx.visit root (fuel + 1) n) fun _ => Visited ctx root [] opens busy n G s := by
  obtain ⟨k, hk, hspecial⟩ := id hcomb
  obtain ⟨node, hnode, rfl⟩ := kind?_eq_some_iff.1 hk
  have hup := hfuel.way hr.valid
  refine .get_bind ?_
  rintro s rfl
  refine .ite (fun h => absurd (contains_iff.1 h) hb) fun _ => ?_
  refine (ensures_ofGraph (Graph.require_eq_ok_iff.2 hnode)).bind_eq ?_
  refine .ite (absurd hspecial) fun _ => ?_
  have hidle : ctx.Idle n ↔ ((ctx.linkedInput? n node "Closure1").isNone &&
      (ctx.linkedInput? n node "Closure2").isNone) = true := by
    have hside : ∀ side : Side, ctx.net.inputLinkByName? n side.input = none ↔
        (ctx.linkedInput? n node side.input).isNone = true := by
      intro side
      obtain ⟨h, hl⟩ | ⟨i, source, h, _, _, hl⟩ := linkedInput?_cases hnode side.input <;>
        simp [h, hl]
    rw [Bool.and_eq_true, ← Side.input.eq_1, ← Side.input.eq_2, ← hside, ← hside]
    refine ⟨fun h => ⟨h.2 _, h.2 _⟩, fun h => ⟨hcomb, ?_⟩⟩
    rintro (_ | _)
    · exact h.1
    · exact h.2
  refine .ite (fun hnone => .pure ?_) fun hlinked => ?_
  · rintro _ rfl
    exact ⟨⟨G, h, .refl⟩, .inr (hidle.2 hnone)⟩
  have hn : n ∉ s.done := fun hd => hb (h.visited n hd (.inr ⟨hcomb, fun hi => hlinked (hidle.1 hi)⟩))
  refine Triple.bind (.modify (Q := fun _ => (· = _)) (by rintro _ rfl; rfl)) fun _ => ?_
  have hmark : Later ctx root [] opens (n :: busy) (· ∈ ctx.sources n) G
      { s with closureDone := s.closureDone.insert n }
      { s with closureDone := s.closureDone.insert n } := ⟨G, h.mark n, .refl⟩
  have hchildren := fun c => mem_children (c := c) hnode
  obtain ⟨hfac, hlink⟩ | ⟨i, ⟨d, o⟩, hfac, hindex, hi, _⟩ := linkedInput?_cases hnode "Fac"
  · rw [hfac]
    refine (ensures_visits hvisit hmark fun c hc => ?_).bind fun _ => .each ?_
    · obtain ⟨side, o, hl⟩ := (hchildren c).1 hc
      obtain ⟨hf, hclosure, hrank⟩ := visits_above hr hv hcomb hfuel hbusy hl (.here c)
      exact ⟨hf, hclosure, hrank, fun hcd =>
        ⟨c, ((hcomb.mem_sources_iff hr.valid).2 ⟨side, o, hl⟩).1, .here hcd⟩⟩
    · rintro t ⟨ht, hall, _⟩
      refine ensures_finish_later hr hcomb hfuel hn ht fun d hd => ?_
      by_cases hclosure : ctx.IsLeaf d ∨ ctx.Combines d
      · exact hall d ((hchildren d).2 ((hcomb.mem_sources_iff hr.valid).1 ⟨hd, hclosure⟩))
      · -- A value would be the factor.
        obtain ⟨hmix, o, hl⟩ := hcomb.link?_of_value hr.valid hd hclosure
        rw [hk] at hmix
        have hindex : node.inputIndex? "Fac" = some 0 := by
          rw [(hr.valid.standard hnode).inputIndex?, Option.some.inj hmix]
          rfl
        simp [inputLinkByName?, hnode, hindex, (link?_eq_some_iff.1 hl).2] at hlink
  · obtain ⟨hmix, rfl⟩ := hcomb.factor hr.valid hnode hindex
    have hl : ctx.link? n 0 = some (d, o) := link?_eq_some_iff.2 ⟨hskip n 0, hi⟩
    have hin : NodeKind.mixClosure.HasInput "Fac" 0 1 := ⟨rfl, rfl, by decide⟩
    have hsize := hin.inputSize hr.valid hmix
    rw [hfac]
    dsimp only
    rw [← bind_assoc]
    refine (ensures_emitDependencies hr hmark hup fun d o hl => ?_).bind fun _ => .each ?_
    · exact not_closure_of_link? hr.valid hl (by omega)
    rintro t ⟨ht, hfactor, _⟩
    refine (ensures_collectSide hr.valid hcomb hnode .first t).bind fun side1 => .each ?_
    rintro _ ⟨⟨phase, rfl⟩, hside1⟩
    refine (ensures_collectSide hr.valid hcomb hnode .second _).bind fun side2 => .each ?_
    rintro _ ⟨⟨phase, rfl⟩, hside2⟩
    refine (ensures_sharedNodes hr side1 side2 _).bind fun shared => .each ?_
    rintro _ ⟨⟨phase, rfl⟩, hshared⟩
    have hshares : Shares ctx root n t.done shared := shares_of_sides hr.valid hcomb
      (Side.choose side1 side2)
      (by rintro (_ | _) c; exacts [hside1 c, hside2 c]) hshared
    have ht' : Later ctx root [] opens (n :: busy) (· ∈ ctx.sources n) G
        { s with closureDone := s.closureDone.insert n } { t with phase } :=
      ht.congr rfl rfl rfl rfl rfl rfl rfl
    have hvals : ∀ d ∈ ctx.sources n, ¬ (ctx.IsLeaf d ∨ ctx.Combines d) → d ∈ t.done := by
      intro d hd hval
      obtain ⟨_, o, hl⟩ := hcomb.link?_of_value hr.valid hd hval
      exact hfactor d o hl
    refine .ite (fun _ => ?_) fun hempty => ?_
    · rw [← bind_assoc]
      refine (ensures_emitShared hr hv hvisit hcomb hfuel hbusy ht' hchildren hshares).bind
        fun _ => .each ?_
      rintro u ⟨hu, hall, hmono⟩
      exact ensures_sides hr hv hvisit hcomb hfuel hbusy hn hu hnode hmix hl
        (fun d hd hval => hmono d (hvals d hd hval)) hmono (hshares.parted.mono hall)
    · have hnone : ∀ c ∈ shared, c ∈ t.done := by
        intro c hc
        have : shared.toList = [] := by simpa [OrderedSet.isEmpty] using hempty
        rw [mem_def, this] at hc
        cases hc
      exact ensures_sides hr hv hvisit hcomb hfuel hbusy hn ht' hnode hmix hl hvals (fun _ h => h)
        (hshares.parted.mono hnone)

end Mix

/-- Walking to a closure makes it done, unless it is idle. -/
theorem ensures_visit (hr : ctx.Rooted root) (hv : ctx.net.ValidBy rank)
    (hskip : ∀ m i, ctx.skips m i = false) (fuel : Nat) : Visits ctx root rank fuel := by
  induction fuel with
  | zero =>
    rintro c opens busy G s ⟨π, hπ, hlen⟩
    have := hr.valid.length_path_le hπ
    omega
  | succ fuel ih =>
    intro c opens busy G s hfuel hclosure hbusy h
    have hup := hfuel.way hr.valid
    by_cases hb : c ∈ s.closureDone
    · -- A closure that was begun is done, since those in progress lie below it.
      have hd : c ∈ s.done := (h.begun c hb).resolve_right fun hm => absurd (hbusy c hm) (lt_irrefl _)
      refine .get_bind ?_
      rintro s rfl
      rw [if_pos (OrderedSet.contains_iff.2 hb)]
      refine .pure ?_
      rintro _ rfl
      exact ⟨⟨G, h, .refl⟩, .inl hd⟩
    · by_cases hcomb : ctx.Combines c
      · exact ensures_visit_combine hr hv ih hcomb hfuel hbusy hskip h hb
      · refine ensures_visit_plain hr h hcomb hup (fun hd => hb (h.visited c hd (.inl ?_))) hb
        exact hclosure.resolve_right hcomb

end Shading
