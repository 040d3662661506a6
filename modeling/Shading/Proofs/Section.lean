import Shading.Bytecode.Compile
import Shading.Proofs.ClosureWalk

/-!
# Whole sections

A section starts with the shading state, if that is saved, walks over everything that feeds its
terminal, and ends with what the output node does.  `Built` is what is known of a finished section:
every line is one that its node can have, every read is right as far as one can tell without running
anything, every jump has its target, and the closures are those of the leaves that feed the terminal.
`ensures_compile` says that this is what a section gets, unless it runs out of slots.
-/

namespace Shading

open Emit SectionContext List Network OrderedSet NodeKind

variable {ctx : SectionContext} {root : NodeId} {T : List (Written × SlotRange)} {G : Outline}
  {s : SectionState} {code code' : Array Instruction} {line : Line} {o : Nat} {state : Option Nat}

/-! ## Finished sections -/

open Classical in
/-- A finished section for what feeds a terminal. -/
structure Built (ctx : SectionContext) (root : NodeId) (G : Outline) (code : Array Instruction) :
    Prop where
  text : G.Text ctx (ctx.OfUse root) code
  jumps : ∀ a l, G.lines[a]? = some l → l.effect = .jump → ∃ t, (a, t) ∈ G.regions
  regions : ∀ r ∈ G.regions, Region ctx root G.lines r
  weighs : G.Weighs
  closures : ∀ n, G.lines.countP (fun l => l.node = n ∧ l.effect = .closure) =
    if ctx.IsLeaf n ∧ ∃ π, ctx.graph.net.ClosurePath root π n then 1 else 0

/-- The leaves that are done are those that feed the root. -/
lemma Walk.isLeaf_and_mem_done_iff (h : Walk ctx root T [] [] G s) (hr : ctx.Rooted root)
    (hroot : root ∈ s.done ∨ ctx.Idle root) {n : NodeId} :
    ctx.IsLeaf n ∧ n ∈ s.done ↔ ctx.IsLeaf n ∧ ∃ π, ctx.net.ClosurePath root π n := by
  refine and_congr_right fun hleaf => ⟨fun hn => ?_, ?_⟩
  · have w := h.upstream n hn
    have hne := hr.kind?_ne (Way.here (P := fun _ => True) trivial)
    obtain ⟨π, hπ, _⟩ := closurePath_of_way hr.valid w hne (.inl hleaf)
    exact ⟨π, hπ⟩
  · rintro ⟨π, hπ⟩
    exact (h.done_of_closurePath hr.valid hπ hroot).resolve_right hleaf.not_idle

open Classical in
lemma Walk.built (h : Walk ctx root T [] [] G s) (hr : ctx.Rooted root)
    (hroot : root ∈ s.done ∨ ctx.Idle root) : Built ctx root G s.code := by
  refine ⟨h.settled.text, fun a l hl hc => (h.jumps a l hl hc).resolve_left not_mem_nil,
    h.regions, h.weighs, fun n => ?_⟩
  have hleaf : (ctx.net.kind? n).any isClosure = true ↔ ctx.IsLeaf n := by
    rw [Option.any_eq_true]
    rfl
  rw [h.closures, closureEffects, apply_ite (List.count _), List.count_nil, ← ite_and]
  exact if_congr (by rw [← h.isLeaf_and_mem_done_iff hr hroot, and_comm, hleaf]) rfl rfl

lemma Built.push (h : Built ctx root G code) (hl : line.effect = .plain)
    (ht : (G.grow [line]).Text ctx (ctx.OfUse root) code') : Built ctx root (G.grow [line]) code' := by
  refine ⟨ht, fun a l hla hc => ?_, fun r hr => (h.regions r hr).grow (h.text.bounded r hr),
    h.weighs.grow h.text.bounded fun q l hl' he => ?_, fun n => ?_⟩
  · obtain hla | ⟨_, rfl⟩ := Outline.getElem?_grow hla
    · exact h.jumps a l hla hc
    · rw [hl] at hc
      cases hc
  · rw [mem_singleton.1 (mem_of_getElem? hl'), hl] at he
    cases he
  · rw [Outline.grow, countP_append, h.closures]
    simp [hl]

/-! ## The start -/

lemma settled_new (useful : NodeId → Prop) (record : Bool) (ids : AttributeIds) :
    Settled ctx useful [] ⟨[], [], ∅⟩ (.new record ids) := by
  have hnil {α : Type} {P : α → Prop} : ∀ e ∈ ([] : List α), P e := fun e he => absurd he not_mem_nil
  exact ⟨⟨rfl, by simp, by simp, by simp, by simp⟩, fun id => ⟨hnil, hnil, hnil, hnil, by simp,
    by simp, fun k _ => Nat.zero_le _, by simp⟩, hnil, fun a ha => absurd ha.1 (not_mem_empty _)⟩

/-- The walk begins when nothing is done. -/
lemma Settled.walk (h : Settled ctx (ctx.OfUse root) T G s) (hw : s.mixWeight = Stack.invalid)
    (hd : s.done = .empty) (hcd : s.closureDone = .empty) (hhidden : G.hidden = ∅)
    (hregions : G.regions = []) (hlines : ∀ l ∈ G.lines, l.effect = .plain) :
    Walk ctx root T [] [] G s := by
  have hnone : ∀ n, n ∉ s.done := by
    rw [hd]
    exact not_mem_empty
  refine ⟨h, hw, by simp [hhidden], fun n hn => absurd hn (hnone n), fun _ _ _ _ hd => absurd hd
    (hnone _), fun n hn => absurd hn (hnone n), fun n hn => absurd hn (hnone n), ?_, fun n => ?_,
    fun q l hl he => ?_, fun a l hl hc => ?_, by simp, by simp [hregions]⟩
  · rw [hcd]
    exact fun n hn => absurd hn (not_mem_empty n)
  · rw [if_neg (hnone n)]
    exact countP_eq_zero.2 fun l hl => by simp [hlines l hl]
  · rw [hlines l (mem_of_getElem? hl)] at he
    cases he
  · rw [hlines l (mem_of_getElem? hl)] at hc
    cases hc

/-- The slots of the shading state. -/
def stateSlots : Option Nat → List (Written × SlotRange)
  | none => []
  | some slot => [(.state, (slot, bumpStateSize))]

/-- Saving the shading state, if the section does. -/
lemma ensures_enterBump (hout : ctx.net.kind? ctx.graph.output = some .output)
    (root : NodeId) (record : Bool) (ids : AttributeIds) :
    Ensures (· = .new record ids) ctx.enterBump fun state s =>
      (∀ slot, state = some slot → ctx.entry = .bump ∧ slot < Stack.size) ∧ s.done = .empty ∧
        s.closureDone = .empty ∧ ∃ G, Walk ctx root (stateSlots state) [] [] G s := by
  have hs : Settled ctx (ctx.OfUse root) [] ⟨[], [], ∅⟩ (.new record ids) := settled_new _ record ids
  refine .ite (fun hsaves => ?_) fun _ => .pure ?_
  · have hentry : ctx.entry = .bump := by
      simp only [savesState, Bool.and_eq_true, beq_iff_eq] at hsaves
      exact hsaves.1
    have hclaim : Ensures (fun s => s.inputSlots = [] ∧ Mid (nextJob ctx (ctx.OfUse root) ⟨[], [], ∅⟩
        (.new record ids) ctx.graph.output) Stack.invalid [] [] [] [] [] s) (claim bumpStateSize) _ :=
      ensures_claim (by decide) fun _ _ h => h
    refine .pre ?_ (hclaim.bind fun slot => ?_)
    · rintro _ rfl
      exact ⟨rfl, hs.mid rfl _⟩
    refine (Appends.push _).ensures.bind fun _ => .pure ?_
    rintro _ ⟨t, _, code, ids', ⟨hfresh, hi, hmid⟩, rfl, rfl, hcode⟩
    have hlt : slot < Stack.size := Nat.lt_of_lt_of_le (Nat.lt_add_of_pos_right (Nat.succ_pos 3))
      hfresh.inside
    have hmid' := hmid.hold (by decide) hfresh (by simp) .state (.saveState hout hlt.le) rfl ids' hcode
    have hdone : t.done = .empty := hmid.done
    obtain ⟨G, ⟨new, rfl, _, hplain⟩, hsettled⟩ := hmid'.settle (by simp [hi]) (fun _ h => h)
      (.inl rfl) (by rw [hmid'.done]) rfl rfl rfl rfl
    refine ⟨fun _ e => ⟨hentry, Option.some.inj e ▸ hlt⟩, hdone, hmid.closed, _,
      hsettled.walk hmid.weight hdone hmid.closed rfl rfl fun l hl => ?_⟩
    simpa using filter_eq_nil_iff.1 (map_eq_nil_iff.1 hplain) l hl
  · rintro _ rfl
    exact ⟨by simp, rfl, rfl, _, hs.walk rfl rfl rfl rfl rfl (by simp)⟩

/-! ## The walk from the terminal -/

/-- A valid graph in which something is linked to the terminal of an entry point. -/
structure Graph.Supplies (g : Graph) (e : EntryPoint) (root : NodeId) (o : Nat) : Prop where
  valid : g.net.Valid
  output : g.net.kind? g.output = some .output
  link : g.net.inputLinkByName? g.output e.terminal = some (root, o)

/-- The input of the output node for an entry point. -/
lemma exists_terminal (hv : ctx.net.Valid)
    (hout : ctx.net.kind? ctx.graph.output = some .output) (e : EntryPoint) :
    ∃ i t, ctx.graph.requireInput ctx.graph.output e.terminal = .ok (i, t) ∧
      (∀ source, ctx.net.inputLinkByName? ctx.graph.output e.terminal = some source ↔
        ctx.net.inputLink? ctx.graph.output i = some source) ∧
      (ctx.net.inputType? (ctx.graph.output, i) = some .closure ↔ e = .surface ∨ e = .volume) := by
  obtain ⟨node, hn, hkind⟩ := kind?_eq_some_iff.1 hout
  obtain ⟨i, hi, hty⟩ : ∃ i, node.inputIndex? e.terminal = some i ∧
      (ctx.net.inputType? (ctx.graph.output, i) = some .closure ↔ e = .surface ∨ e = .volume) := by
    rw [(hv.standard hn).inputIndex?, hkind]
    cases e <;> refine ⟨_, rfl, ?_⟩ <;> rw [inputType?, hout] <;> dsimp only <;> decide
  obtain ⟨t, ht⟩ := Graph.exists_requireInput hn hi
  exact ⟨i, t, ht, fun source => by simp [inputLinkByName?, hn, hi], hty⟩

/-- What feeds a terminal is a node with outputs. -/
lemma rooted_of_link (hv : ctx.net.Valid)
    (hout : ctx.net.kind? ctx.graph.output = some .output) {i : Nat}
    (hl : ctx.net.inputLink? ctx.graph.output i = some (root, o)) : ctx.Rooted root := by
  obtain ⟨k, hk, houtputs⟩ := hv.exists_outputs hl
  refine ⟨hv, hout, k, hk, ?_⟩
  rintro rfl
  exact houtputs rfl

section

variable {i : Nat} (hr : ctx.Rooted root)
  (hl : ctx.net.inputLink? ctx.graph.output i = some (root, o))
  (hty : ctx.net.inputType? (ctx.graph.output, i) = some .closure ↔
    ctx.entry = .surface ∨ ctx.entry = .volume)
include hr hl hty

lemma ensures_visitRoot (hT : ctx.entry = .surface ∨ ctx.entry = .volume → T = [])
    (h : Walk ctx root T [] [] G s) (hd : s.done = .empty) (hcd : s.closureDone = .empty) :
    Ensures (· = s) (ctx.visitRoot root) fun _ s' => ∃ G', Walk ctx root T [] [] G' s' ∧
      (root ∈ s'.done ∨ ctx.Idle root) := by
  have key : Ensures (· = s) (ctx.visitRoot root) fun _ => Visited ctx root T [] [] root G s := by
    by_cases hentry : ctx.entry = .surface ∨ ctx.entry = .volume
    · obtain rfl := hT hentry
      obtain ⟨rank, hv⟩ := hr.valid
      have hskip : ∀ m i, ctx.skips m i = false := by
        intro m i
        obtain h | h := hentry <;> simp [skips, h]
      exact ensures_visit hr hv hskip _ ⟨[], .here root, le_rfl⟩
        (isLeaf_or_combines hr.valid hl (hty.2 hentry)) (by simp) h
    · have hcomb : ¬ ctx.Combines root := fun hc =>
        hentry (hty.1 (inputType?_of_closure hr.valid hl (.inr hc)))
      refine ensures_visit_plain hr h hcomb (.here trivial) ?_ ?_
      · rw [hd]
        exact not_mem_empty _
      · rw [hcd]
        exact not_mem_empty _
  refine key.post ?_
  rintro _ s' ⟨⟨G', hwalk, _⟩, hroot⟩
  exact ⟨G', hwalk, hroot⟩

/-- The walk of a section from its terminal, once the shading state is saved. -/
lemma ensures_visitRoot_entered
    (hstate : ∀ slot, state = some slot → ctx.entry = .bump ∧ slot < Stack.size)
    (hd : s.done = .empty) (hcd : s.closureDone = .empty)
    (h : Walk ctx root (stateSlots state) [] [] G s) :
    Ensures (· = { s with flags := s.flags.union (entryFlags ctx.entry) }) (ctx.visitRoot root)
      fun _ s' => ∃ G', Walk ctx root (stateSlots state) [] [] G' s' ∧
        (root ∈ s'.done ∨ ctx.Idle root) := by
  have hT : ctx.entry = .surface ∨ ctx.entry = .volume → stateSlots state = [] := by
    intro hentry
    cases hs : state with
    | none => rfl
    | some slot =>
      rw [(hstate slot hs).1] at hentry
      simp at hentry
  have hstart : Walk ctx root (stateSlots state) [] [] G
      { s with flags := s.flags.union (entryFlags ctx.entry) } :=
    h.congr (h.settled.congr rfl rfl rfl rfl (fun _ h => h) subset_rfl) rfl rfl rfl
  exact ensures_visitRoot hr hl hty hT hstart hd hcd

end

/-! ## The end -/

lemma ensures_terminal (hr : ctx.Rooted root) (h : Walk ctx root T [] [] G s)
    (hroot : root ∈ s.done ∨ ctx.Idle root) (hnot : ¬ ctx.Combines root) {name : String}
    {opcode : Opcode} {i : Nat} (hc : (opcode, i) ∈ [(.setDisplacement, 2), (.closureSetNormal, 3)])
    (hin : output.HasInput name i 3)
    (hl : ctx.net.inputLink? ctx.graph.output i = some (root, o)) :
    Ensures (· = s) (do
      if ctx.isLinked ctx.graph.output name then
        op opcode (slotWord (← ctx.assignInput ctx.graph.output name)) 0 0) fun _ s' =>
      ∃ G', Built ctx root G' s'.code ∧ Settled ctx (ctx.OfUse root) T G' s' := by
  have hbuilt := h.built hr hroot
  have hsize := hin.inputSize hr.valid hr.output
  refine .ite (fun hlinked => ?_) fun _ => .pure ?_
  · obtain ⟨node, hn, hkind⟩ := kind?_eq_some_iff.1 hr.output
    have hlink : ctx.link? ctx.graph.output i = some (root, o) := by
      have hindex : node.inputIndex? name = some i := by
        rw [(hr.valid.standard hn).inputIndex?, hkind, hin.1]
      rw [isLinked, hn, Option.bind_some, hindex, Option.bind_some, Option.isSome_iff_exists] at hlinked
      obtain ⟨source, hs⟩ := hlinked
      rw [hs, ← hl, (link?_eq_some_iff.1 hs).2]
    have hidle : ¬ ctx.Idle root := fun hi => hnot hi.1
    have hdone := hroot.resolve_right hidle
    have houtput : ctx.graph.output ∉ s.done := fun hd => hr.kind?_ne (h.upstream _ hd) hr.output
    obtain ⟨t, ht⟩ := hin.requireInput hr.valid hr.output
    have hheld := h.settled.held (root, o)
      ⟨hdone, ctx.graph.output, i, houtput, hlink, by rw [hsize]; decide⟩
    refine Triple.bind
      ((ensures_ofGraph ht).bind_eq (ensures_assignInputAt_linked hr.valid (h.settled.slots 0) hlink
        (by rw [hsize]; decide) hheld)) fun slot => .modify ?_
    rintro _ ⟨hmem, stack, hcount, rfl⟩
    obtain ⟨hlt, hsettled⟩ := h.settled.readLine hr.valid hlink (fun _ =>
      ⟨fun hh => (h.hidden root hh).2 rfl, .inr (.here hidle)⟩) hmem hsize (by decide)
      (.terminal hr.output hc) hcount
    refine ⟨_, hbuilt.push ?_ hsettled.text, hsettled⟩
    simp only [mem_cons, Prod.mk.injEq, not_mem_nil, or_false] at hc
    obtain ⟨rfl, _⟩ | ⟨rfl, _⟩ := hc <;> rfl
  · rintro _ rfl
    exact ⟨G, hbuilt, h.settled⟩

lemma ensures_emitOutput (hr : ctx.Rooted root) (h : Walk ctx root T [] [] G s)
    (hroot : root ∈ s.done ∨ ctx.Idle root)
    (hl : ctx.net.inputLinkByName? ctx.graph.output ctx.entry.terminal = some (root, o)) :
    Ensures (· = s) (ctx.emitOutput ctx.graph.output) fun _ s' =>
      ∃ G', Built ctx root G' s'.code ∧ Settled ctx (ctx.OfUse root) T G' s' := by
  obtain ⟨node, hn, hkind⟩ := kind?_eq_some_iff.1 hr.output
  have hlink : ∀ {i size}, output.HasInput ctx.entry.terminal i size →
      ctx.net.inputLink? ctx.graph.output i = some (root, o) ∧ ¬ ctx.Combines root := by
    intro i size hin
    have hindex : node.inputIndex? ctx.entry.terminal = some i := by
      rw [(hr.valid.standard hn).inputIndex?, hkind, hin.1]
    have hi : ctx.net.inputLink? ctx.graph.output i = some (root, o) := by
      simpa [inputLinkByName?, hn, hindex] using hl
    refine ⟨hi, fun hc => ?_⟩
    have hsize := hin.inputSize hr.valid hr.output
    rw [inputSize_eq hr.valid, inputType?_of_closure hr.valid hi (.inr hc)] at hsize
    exact hin.2.2.ne hsize
  unfold emitOutput
  cases hentry : ctx.entry with
  | surface => exact .pure (by rintro _ rfl; exact ⟨G, h.built hr hroot, h.settled⟩)
  | volume => exact .pure (by rintro _ rfl; exact ⟨G, h.built hr hroot, h.settled⟩)
  | displacement =>
    have hin : output.HasInput "Displacement" 2 3 := ⟨rfl, rfl, by decide⟩
    rw [hentry] at hlink
    obtain ⟨hi, hnot⟩ := hlink hin
    exact ensures_terminal hr h hroot hnot (by simp) hin hi
  | bump =>
    have hin : output.HasInput "Normal" 3 3 := ⟨rfl, rfl, by decide⟩
    rw [hentry] at hlink
    obtain ⟨hi, hnot⟩ := hlink hin
    exact ensures_terminal hr h hroot hnot (by simp) hin hi

lemma ensures_leaveBump (hout : ctx.net.kind? ctx.graph.output = some .output)
    (hslot : ∀ slot, state = some slot → slot < Stack.size)
    (h : Built ctx root G s.code)
    (hs : Settled ctx (ctx.OfUse root) (stateSlots state) G s) :
    Ensures (· = s) (leaveBump state) fun _ s' => ∃ G', Built ctx root G' s'.code := by
  cases state with
  | none => exact .pure (by rintro _ rfl; exact ⟨G, h⟩)
  | some slot =>
    obtain ⟨q, hkept, hexposed⟩ := (hs.slots 0).others _ (mem_singleton_self _)
    refine Triple.bind (.modify ?_) fun _ =>
      .modify fun t ht => ht
    rintro _ rfl
    refine ⟨G.grow [⟨ctx.graph.output, [.op .leaveBumpEval (slotWord slot) 0 0],
      placed .state slot 4, []⟩], h.push rfl ?_⟩
    refine h.text.push Array.toList_push (.restoreState hout (hslot slot rfl).le) (fun x hx => ?_)
      (by simp)
    obtain ⟨_, rfl⟩ := mem_placed.1 hx
    exact ⟨q, .state, hkept, .state, fun _ => hexposed⟩

/-- A section with something linked to its terminal gets built, unless it runs out of slots. -/
theorem ensures_compile (hs : ctx.graph.Supplies ctx.entry root o) (record : Bool)
    (ids : AttributeIds) :
    Ensures (· = .new record ids) ctx.compile fun _ s => ∃ G, Built ctx root G s.code := by
  obtain ⟨hv, hout, hl⟩ := hs
  obtain ⟨i, t, hterm, hname, hty⟩ := exists_terminal hv hout ctx.entry
  have hlink := (hname _).1 hl
  have hr := rooted_of_link hv hout hlink
  refine (ensures_ofGraph hterm).bind_eq ?_
  refine (ensures_enterBump hout root record ids).bind fun state => .each ?_
  rintro s ⟨hstate, hd, hcd, G, hwalk⟩
  rw [hlink]
  refine Triple.bind (.modify (by rintro _ rfl; rfl)) fun _ =>
    (ensures_visitRoot_entered hr hlink hty hstate hd hcd hwalk).bind fun _ =>
      .exists_imp fun G => .each fun t ht => ?_
  obtain ⟨hwalk, hroot⟩ := ht
  have hphase : Walk ctx root (stateSlots state) [] [] G { t with phase := .emitting } :=
    hwalk.congr (hwalk.settled.congr rfl rfl rfl rfl (fun _ h => h) subset_rfl) rfl rfl rfl
  refine Triple.bind (.modify (by rintro _ rfl; rfl)) fun _ =>
    (ensures_emitOutput hr hphase hroot hl).bind fun _ => .each ?_
  rintro u ⟨G', hbuilt, hsettled⟩
  refine (ensures_leaveBump hout (fun slot hs => (hstate slot hs).2) hbuilt hsettled).bind fun _ => ?_
  refine .exists_imp fun G'' => .ite (fun _ => ?_) fun _ => .modify fun v hv => ⟨G'', hv⟩
  refine Triple.bind (.modify fun v hv => ?_) fun _ => .modify fun v hv => hv
  refine ⟨G''.grow [⟨ctx.graph.output, [.op .stop 0 0 0], [], []⟩], hv.push rfl ?_⟩
  exact hv.text.push Array.toList_push (.stop hout) (by simp) (by simp)

end Shading
