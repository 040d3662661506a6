import Shading.Proofs.Walk

/-!
# Jumps over the sides of a mix

Each side of a mix with a linked factor stands behind a jump.  When the jump gets its target, two
things have to be known of what was done behind it.  No node of use that is still to come may read
it: what both sides use, or one side and something outside the mix, was done before the jump, so
that all ways to the rest go through this side (`Parted`).  For the same reason every closure path
to a closure behind the jump takes this side.  `ensures_branch` is one side with its jump.
-/

namespace Shading

open Emit SectionContext List

variable {ctx : SectionContext} {root n : NodeId} {T : List (Written × SlotRange)}
  {opens : List Nat} {busy : List NodeId} {G G' G₀ : Outline} {s s' : SectionState}
  {starts : NodeId → Prop} {side : Side} {slot : Nat} {distance : Int32} {source : NodeId × Nat}

/-! ## Jumps -/

@[simp] lemma effect_jumpLine : (jumpLine n side.jump distance slot).effect = .jump := by
  cases side <;> rfl

/-- A jump over a side of a mix, with its target still open. -/
lemma Walk.open (h : Walk ctx root T opens busy G s)
    (hj : (nextJob ctx (ctx.OfUse root) G s n).Ready)
    (hk : ctx.net.kind? n = some .mixClosure) (side : Side)
    (hl : ctx.link? n 0 = some source) (hmem : (source, slot) ∈ s.outputSlots) {stack : Stack}
    (hc : ∀ k, stack.count k = s.stack.count k) :
    slot < Stack.size ∧ Walk ctx root T (G.lines.length :: opens) busy
      (G.grow [jumpLine n side.jump 0 slot])
      { s with
        stack
        inputSlots := s.inputSlots.insert (n, 0) slot
        code := s.code.push (.op side.jump 0 (slotWord slot) 0) } := by
  have hin : NodeKind.mixClosure.HasInput "Fac" 0 1 := ⟨rfl, rfl, by decide⟩
  have hsize := hin.inputSize hj.valid hk
  obtain ⟨hlt, hsettled⟩ : slot < Stack.size ∧ Settled ctx (ctx.OfUse root) T
      (G.grow [jumpLine n side.jump 0 slot]) _ :=
    h.settled.readLine hj.valid hl (fun hu => hj.sees hu hl (hsize ▸ Nat.one_ne_zero)) hmem hsize
      Nat.one_pos (.jump 0 hk side.jump_eq) hc
  refine ⟨hlt, hsettled, h.weight, h.hidden, h.closed, h.seen, h.upstream, h.visited, h.begun,
    fun m => ?_, ?_, fun a l hla hc => ?_, fun a ha => ?_, fun r hr => ?_⟩
  · rw [Outline.grow, countP_append, h.closures m]
    simp
  · refine h.weighs.grow h.settled.text.bounded fun q l hl he => ?_
    rw [mem_singleton.1 (mem_of_getElem? hl), effect_jumpLine] at he
    cases he
  · obtain hla | ⟨rfl, _⟩ := Outline.getElem?_grow hla
    · exact (h.jumps a l hla hc).imp_left fun ha => mem_cons_of_mem _ ha
    · exact .inl mem_cons_self
  · rw [Outline.grow, length_append, length_singleton]
    obtain rfl | ha := mem_cons.1 ha
    · refine ⟨Nat.lt_succ_self _, fun r hr => ?_⟩
      have := (h.regions r hr).later
      have := h.settled.text.bounded r hr
      omega
    · exact ⟨(h.opened a ha).1.trans (Nat.lt_succ_self _), (h.opened a ha).2⟩
  · exact (h.regions r hr).grow (h.settled.text.bounded r hr)

/-- What computes an output of a node that is done is done. -/
lemma Walk.origin (h : Walk ctx root T opens busy G s) (hv : ctx.net.Valid)
    {a t : NodeId × Nat} (ho : ctx.Origin a t) (ha : a.1 ∈ s.done) : t.1 ∈ s.done := by
  induction ho with
  | own _ => exact ha
  | @passed m o source t hpass hl _ ih =>
    obtain ⟨node, invert, space, hn, hkind, _⟩ := hpass
    have hk := Network.kind?_of_node? hn
    rw [hkind] at hk
    have hin : (NodeKind.bump invert space).HasInput "Normal" 3 3 := ⟨rfl, rfl, by decide⟩
    have hsize := hin.inputSize hv hk
    have hval := not_closure_of_link? hv hl (by omega)
    obtain hd | hidle := h.closed m ha source.1 ((mem_sources hv).2 ⟨3, source.2, hl⟩)
    · exact ih hd
    · exact absurd (.inr hidle.1) hval

/-- A jump gets its target.  Nothing that got done behind it is still to be read by a node of use,
and every closure path to a closure behind it takes the side. -/
lemma Walk.close (hv : ctx.net.Valid) {s₀ s₁ : SectionState}
    (h₀ : Walk ctx root [] opens busy G₀ s₀)
    (h : Walk ctx root [] (G₀.lines.length :: opens) busy G s)
    (hon : Onward ctx starts (G₀.grow [jumpLine n side.jump 0 slot]) s₁ G s)
    (hd : s₁.done = s₀.done) (hk : ctx.net.kind? n = some .mixClosure)
    (hslot : slot < Stack.size) (hroot : ∀ m ∈ s.done, m ∉ s₀.done → m ≠ root)
    (hseen : ∀ {m i d o}, m ∉ s.done → Way ctx.sources (fun x => ¬ ctx.Idle x) root m →
      ctx.link? m i = some (d, o) → ctx.inputSize (m, i) ≠ 0 → d ∈ s.done → d ∈ s₀.done)
    (hpath : ∀ m ∈ s.done, m ∉ s₀.done → ctx.IsLeaf m →
      ∀ π, ctx.net.ClosurePath root π m → (n, side) ∈ π)
    (hdist : distance = Int32.ofNat (s.code.size - s₀.code.size - 1)) :
    Walk ctx root [] opens busy
      (G.close G₀.lines.length distance { m | m ∈ s.done ∧ m ∉ s₀.done })
      { s with code := s.code.modify s₀.code.size fun i => { i with w1 := distance } } := by
  obtain ⟨a, ha⟩ : ∃ a, a = G₀.lines.length := ⟨_, rfl⟩
  obtain ⟨new, hlines, hnew⟩ := hon.lines
  rw [Outline.grow, append_assoc, singleton_append] at hlines
  have hline : G.lines[a]? = some (jumpLine n side.jump 0 slot) := by
    rw [hlines, ha, getElem?_append_right le_rfl, Nat.sub_self]
    rfl
  have hlast : a < G.lines.length := (List.getElem?_eq_some_iff.1 hline).1
  -- Lines behind the jump belong to nodes that were not done before it.
  have hbehind : ∀ {q l}, a < q → G.lines[q]? = some l → l.node ∉ s₀.done := by
    intro q l hq hl
    rw [hlines, getElem?_append_right (by omega)] at hl
    obtain ⟨i, hi⟩ : ∃ i, q - G₀.lines.length = i + 1 := ⟨q - a - 1, by omega⟩
    rw [hi, getElem?_cons_succ] at hl
    exact hd ▸ hnew l (mem_of_getElem? hl)
  have hpos : position G.lines a = s₀.code.size := by
    rw [hlines, ha, position_append le_rfl, position_length, ← h₀.settled.text.words,
      Array.length_toList]
  have hsize : position G.lines G.lines.length = s.code.size := by
    rw [position_length, ← h.settled.text.words, Array.length_toList]
  have hclosed := h.settled.close hline hk side.jump_eq hslot.le distance fun e he
      (hb : e.1.1 ∉ { m | m ∈ s.done ∧ m ∉ s₀.done }) q l t r horigin hl hw => by
    by_contra hq
    obtain ⟨_, _, hds | ⟨_, hA⟩⟩ := (h.settled.slots 0).sizes e he
    · have he₀ : e.1.1 ∈ s₀.done := by
        by_contra h₀
        exact hb ⟨hds, h₀⟩
      have ht := h₀.origin hv horigin he₀
      rw [(h.settled.text.compiles l (mem_of_getElem? hl)).node_of_output hw] at ht
      exact hbehind (by omega) hl ht
    · cases hA
  rw [hpos] at hclosed
  rw [← ha] at h ⊢
  refine ⟨hclosed, h.weight, fun m hm => ?_, h.closed, fun {m i d o} hm w hl hsz hds => ?_,
    h.upstream, h.visited, h.begun, fun m => ?_, h.weighs.close, fun b l hl hc => ?_,
    fun b hb => ?_, fun r hr => ?_⟩
  · obtain hm | hm := hm
    · exact h.hidden m hm
    · exact ⟨hm.1, hroot m hm.1 hm.2⟩
  · rintro (hdh | hdh)
    · exact h.seen hm w hl hsz hds hdh
    · exact hdh.2 (hseen hm w hl hsz hds)
  · rw [← h.closures m]
    exact countP_patch fun x => x.1 = m ∧ x.2 = .closure
  · obtain ⟨l', hl', _, hc', _⟩ := getElem?_patch hl
    obtain hb | ⟨t, ht⟩ := h.jumps b l' hl' (hc'.trans hc)
    · obtain rfl | hb := mem_cons.1 hb
      · exact .inr ⟨_, mem_cons_self⟩
      · exact .inl hb
    · exact .inr ⟨t, mem_cons_of_mem _ ht⟩
  · obtain ⟨hlt, hne⟩ := h.opened b (mem_cons_of_mem _ hb)
    rw [Outline.close, length_modify]
    refine ⟨hlt, fun r hr => ?_⟩
    obtain rfl | hr := mem_cons.1 hr
    · have := (h₀.opened b hb).1
      omega
    · exact hne r hr
  · obtain rfl | hr := mem_cons.1 hr
    · refine ⟨hlast, n, side, slot, hk, hslot, ?_, fun p l hp _ hl hc => ?_⟩
      · rw [Outline.close, getElem?_modify, hline, position_patch, position_patch, hpos, hsize,
          ← hdist]
        simp [jumpLine, Line.patch, Instruction.op]
      · obtain ⟨l', hl', hn, hc', _⟩ := getElem?_patch hl
        obtain ⟨hds, hleaf⟩ := h.leaf (mem_of_getElem? hl') (hc'.trans hc)
        rw [← hn]
        exact hpath l'.node hds (hbehind hp hl') hleaf
    · exact (h.regions r hr).patch ((h.opened a mem_cons_self).2 r hr)

/-! ## Sides -/

/-- What is used on two sides of a node, or on a side and outside the node, is done by now (`E`).
`D` are the nodes that were done when the sides were looked at. -/
structure Parted (ctx : SectionContext) (root n : NodeId) (D E : NodeSet) : Prop where
  both : ∀ {side side' : Side} {d d' o o' c}, side ≠ side' →
    ctx.graph.net.inputLinkByName? n side.input = some (d, o) →
    ctx.graph.net.inputLinkByName? n side'.input = some (d', o') →
    Way ctx.sources (· ∉ D) d c → Way ctx.sources (· ∉ D) d' c → c ∈ E
  outside : ∀ {side : Side} {d o x c},
    ctx.graph.net.inputLinkByName? n side.input = some (d, o) → Way ctx.sources (· ∉ D) d c →
    root ≠ n → x ∈ ctx.sources root → Way ctx.sources (fun y => y ∉ D ∧ y ≠ n) x c → c ∈ E

namespace Parted

variable {D E E' : NodeSet} {c o : Nat}

lemma mono (hp : Parted ctx root n D E) (h : ∀ x ∈ E, x ∈ E') : Parted ctx root n D E' :=
  ⟨fun hne hl hl' w w' => h _ (hp.both hne hl hl' w w'),
    fun hl w hne hx v => h _ (hp.outside hl w hne hx v)⟩

/-- What got done on one side is not read by a node of use that is still to come. -/
lemma seen (hp : Parted ctx root n D E) (hv : ctx.net.Valid) (hcomb : ctx.Combines n)
    (hside : ctx.net.inputLinkByName? n side.input = some (c, o))
    (hvals : ∀ d ∈ ctx.sources n, ¬ (ctx.IsLeaf d ∨ ctx.Combines d) → d ∈ E)
    (hDE : ∀ x ∈ D, x ∈ E) (h : Walk ctx root T opens busy G s) (hEs : ∀ x ∈ E, x ∈ s.done)
    (hfresh : ∀ m ∈ s.done, m ∈ E ∨ Way ctx.sources (· ∉ E) c m) (hn : n ∉ s.done)
    (hc : c ∈ s.done ∨ ctx.Idle c) {m i d o : Nat} (hm : m ∉ s.done)
    (w : Way ctx.sources (fun x => ¬ ctx.Idle x) root m) (hl : ctx.link? m i = some (d, o))
    (hsize : ctx.inputSize (m, i) ≠ 0) (hd : d ∈ s.done) : d ∈ E := by
  by_contra hdE
  have hsrc : d ∈ ctx.sources m := (mem_sources hv).2 ⟨i, o, hl⟩
  have hdD : d ∉ D := fun h => hdE (hDE d h)
  have hcd : Way ctx.sources (· ∉ D) c d :=
    ((hfresh d hd).resolve_left hdE).mono fun x hx hD => hx (hDE x hD)
  have hnotD : ∀ {x}, x ∉ s.done → x ∉ D := fun hx hD => hx (hEs _ (hDE _ hD))
  -- The way to the reader keeps to nodes that are not done; look at where it last passes the mix.
  have w' := w.outside (fun y hy x hx hidle => (h.closed y hy x hx).resolve_right hidle) hm
  obtain rfl | ⟨y, hy, v⟩ | v := w'.avoid n
  · exact hdE (hvals d hsrc (not_closure_of_link? hv hl hsize))
  · obtain ⟨⟨hidle, hyd⟩, _⟩ := v.left
    by_cases hcl : ctx.IsLeaf y ∨ ctx.Combines y
    · obtain ⟨side', o', hside'⟩ := (hcomb.mem_sources_iff hv).1 ⟨hy, hcl⟩
      by_cases e : side = side'
      · subst e
        rw [hside] at hside'
        cases hside'
        exact hc.elim hyd hidle
      · have hyd' : Way ctx.sources (· ∉ D) y d :=
          (v.mono fun x hx => hnotD hx.1.2).snoc hsrc hdD
        exact hdE (hp.both e hside hside' hcd hyd')
    · exact hyd (hEs y (hvals y hy hcl))
  · have hdn : d ≠ n := by
      rintro rfl
      exact hn hd
    have hrd : Way ctx.sources (fun y => y ∉ D ∧ y ≠ n) root d :=
      (v.mono fun x hx => ⟨hnotD hx.1.2, hx.2⟩).snoc hsrc ⟨hdD, hdn⟩
    have hroot := hrd.left.2
    cases hrd with
    | here _ =>
      obtain ⟨rank, hv⟩ := hv
      have := rank_lt hv hsrc
      have := rank_le hv w
      omega
    | step _ hx hrest => exact hdE (hp.outside hside hcd hroot hx hrest)

/-- Closure paths to a leaf that got done on one side take that side. -/
lemma path (hp : Parted ctx root n D E) (hv : ctx.net.Valid) (hcomb : ctx.Combines n)
    (hside : ctx.net.inputLinkByName? n side.input = some (c, o))
    (hDE : ∀ x ∈ D, x ∈ E) (hup : Way ctx.sources (fun _ => True) root n)
    (hE : ∀ y ∈ E, ∀ d ∈ ctx.sources y, d ∈ E ∨ ctx.Idle d) {m : NodeId} (hm : m ∉ E)
    (hcm : Way ctx.sources (· ∉ E) c m) (hleaf : ctx.IsLeaf m) {π : List (NodeId × Side)}
    (hπ : ctx.net.ClosurePath root π m) : (n, side) ∈ π := by
  have hcm' : Way ctx.sources (· ∉ D) c m := hcm.mono fun x hx hD => hx (hDE x hD)
  by_contra hnot
  by_cases hother : ∃ side', (n, side') ∈ π
  · obtain ⟨side', hmem⟩ := hother
    obtain ⟨d, o', π', hside', hπ', hsub⟩ := hπ.of_mem hmem
    have w := way_of_closurePath (P := fun x => ¬ ctx.Idle x) hv hπ'
      (fun x hx => not_idle_of_mem_closurePath hπ (hsub hx)) hleaf.not_idle
    have w' := w.outside (fun y hy x hx hidle => (hE y hy x hx).resolve_right hidle) hm
    have hne : side ≠ side' := by
      rintro rfl
      exact hnot hmem
    refine hm (hp.both hne hside hside' hcm' ?_)
    exact w'.mono fun x hx hD => hx.2 (hDE x hD)
  · have hne : ∀ x ∈ π, ¬ ctx.Idle x.1 ∧ x.1 ≠ n := fun x hx =>
      ⟨not_idle_of_mem_closurePath hπ hx, fun e => hother ⟨x.2, e ▸ hx⟩⟩
    have hmn : m ≠ n := by
      rintro rfl
      exact hleaf.not_combines hcomb
    have w := way_of_closurePath (P := fun x => ¬ ctx.Idle x ∧ x ≠ n) hv hπ hne
      ⟨hleaf.not_idle, hmn⟩
    have w' := w.outside (fun y hy x hx hP => (hE y hy x hx).resolve_right hP.1) hm
    have hroot := w'.left.1.2
    cases w' with
    | here _ =>
      -- The leaf lies above the node, and the node above the root.
      have hsrc := ((hcomb.mem_sources_iff hv).2 ⟨side, o, hside⟩).1
      obtain ⟨rank, hv⟩ := hv
      have := rank_le hv hcm
      have := rank_lt hv hsrc
      have := rank_le hv hup
      omega
    | step _ hx hrest =>
      refine hm (hp.outside hside hcm' hroot hx (hrest.mono fun y hy => ⟨fun hD => ?_, hy.1.2⟩))
      exact hy.2 (hDE y hD)

end Parted

/-- A closure has been walked to: it is done, unless it is idle. -/
def Visited (ctx : SectionContext) (root : NodeId) (T : List (Written × SlotRange))
    (opens : List Nat) (busy : List NodeId) (c : NodeId) (G : Outline) (s s' : SectionState) : Prop :=
  Later ctx root T opens busy (· = c) G s s' ∧ (c ∈ s'.done ∨ ctx.Idle c)

/-- From the line before a jump to the line after its target. -/
lemma Onward.close {s₀ s₁ : SectionState} {behind : Set NodeId}
    (hon : Onward ctx starts (G₀.grow [jumpLine n side.jump 0 slot]) s₁ G s)
    (hd : s₁.done = s₀.done) (hcd : s₁.closureDone = s₀.closureDone) (hn : n ∉ s₀.done)
    (code : Array Instruction) :
    Onward ctx starts G₀ s₀ (G.close G₀.lines.length distance behind) { s with code } := by
  obtain ⟨new, hlines, hnew⟩ := hon.lines
  rw [hd] at hnew
  refine ⟨⟨(jumpLine n side.jump 0 slot).patch distance :: new, ?_, ?_⟩, hd ▸ hon.done,
    hcd ▸ hon.begun, hd ▸ hon.fresh⟩
  · rw [Outline.close, hlines, Outline.grow, append_assoc, singleton_append]
    exact modify_append_cons ..
  · exact forall_mem_cons.2 ⟨hn, hnew⟩

/-- One side of a mix behind its jump. -/
lemma ensures_branch (hr : ctx.Rooted root) (h : Walk ctx root [] opens (n :: busy) G s)
    (hk : ctx.net.kind? n = some .mixClosure)
    (hl : ctx.link? n 0 = some source) {c o : Nat}
    (hside : ctx.net.inputLinkByName? n side.input = some (c, o)) {D : NodeSet}
    (hp : Parted ctx root n D s.done) (hDE : ∀ x ∈ D, x ∈ s.done)
    (hvals : ∀ d ∈ ctx.sources n, ¬ (ctx.IsLeaf d ∨ ctx.Combines d) → d ∈ s.done)
    (hup : Way ctx.sources (fun _ => True) root n) (hn : n ∉ s.done) {inner : Emit PUnit}
    (hinner : ∀ {opens' G₁ s₁}, Walk ctx root [] opens' (n :: busy) G₁ s₁ →
      Ensures (· = s₁) inner fun _ => Visited ctx root [] opens' (n :: busy) c G₁ s₁) :
    Ensures (· = s) (do
      let slot ← ctx.assignInputAt n 0
      let t ← get
      op side.jump 0 (slotWord slot) 0
      inner
      patchJump t.code.size) fun _ => Visited ctx root [] opens (n :: busy) c G s := by
  have hin : NodeKind.mixClosure.HasInput "Fac" 0 1 := ⟨rfl, rfl, by decide⟩
  have hsize := hin.inputSize hr.valid hk
  have hcomb : ctx.Combines n := ⟨_, hk, rfl⟩
  have hread : ∀ i d o, ctx.link? n i = some (d, o) → ctx.inputSize (n, i) ≠ 0 → d ∈ s.done :=
    fun i d o hl hs => hvals d ((mem_sources hr.valid).2 ⟨i, o, hl⟩)
      (not_closure_of_link? hr.valid hl hs)
  have hheld := h.settled.held source
    ⟨hread 0 source.1 source.2 hl (by omega), n, 0, hn, hl, by omega⟩
  refine (ensures_assignInputAt_linked hr.valid (h.settled.slots n) hl (by dsimp only; omega)
    hheld).bind fun slot => .each ?_
  rintro _ ⟨hmem, stack, hcount, rfl⟩
  obtain ⟨hlt, hopen⟩ := h.open (h.ready hr hn hup hread) hk side hl hmem hcount
  refine .get_bind ?_
  rintro _ rfl
  refine Triple.bind (.modify ?_) fun _ => (hinner hopen).bind fun _ =>
    .modify ?_
  · rintro _ rfl
    rfl
  rintro t ⟨⟨G', hwalk, hon⟩, hc⟩
  have hsrc : c ∈ ctx.sources n := ((hcomb.mem_sources_iff hr.valid).2 ⟨side, o, hside⟩).1
  have hfresh : ∀ m ∈ t.done, m ∈ s.done ∨ Way ctx.sources (· ∉ s.done) c m := fun m hm =>
    (hon.fresh m hm).imp_right fun ⟨_, e, w⟩ => e ▸ w
  have hrank : ∀ m ∈ t.done, m ∉ s.done → m ≠ root ∧ m ≠ n := by
    intro m hm hms
    obtain ⟨rank, hv⟩ := hr.valid
    have := rank_le hv ((hfresh m hm).resolve_left hms)
    have := rank_lt hv hsrc
    have := rank_le hv hup
    constructor <;> rintro rfl <;> omega
  have hnt : n ∉ t.done := fun hnt => (hrank n hnt hn).2 rfl
  refine ⟨⟨_, h.close hr.valid hwalk hon rfl hk hlt (fun m hm hms => (hrank m hm hms).1)
    (hp.seen hr.valid hcomb hside hvals hDE hwalk hon.done hfresh hnt hc) ?_ rfl, ?_⟩, hc⟩
  · intro m hm hms hleaf π hπ
    exact hp.path hr.valid hcomb hside hDE hup h.closed hms ((hfresh m hm).resolve_left hms) hleaf hπ
  · exact hon.close (by rfl) (by rfl) hn _

end Shading
