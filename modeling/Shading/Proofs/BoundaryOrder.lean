import Shading.Proofs.Chronicle
import Shading.Proofs.SectionGrowth

/-!
# One node at a time

No boundary of a section is missing.  The first one is the empty section, the last one is the
finished section, and from one to the next at most one node gets done (`leads_compile_paced`).
-/

namespace Shading

open SectionContext Emit Chronicle Moves

variable {ctx : SectionContext} {id : NodeId} {s s' : SectionState} {u : PUnit} {α : Type}

/-! ## Giving slots back -/

/-- No output got slots, and no node got done. -/
structure Drops (s s' : SectionState) : Prop where
  outputs : s'.outputSlots ⊆ s.outputSlots
  done : s'.done = s.done

instance : IsPreorder SectionState Drops where
  refl _ := ⟨List.Subset.refl _, rfl⟩
  trans _ _ _ h h' := ⟨List.Subset.trans h'.outputs h.outputs, h'.done.trans h.done⟩

lemma Drops.of_eq (ho : s'.outputSlots = s.outputSlots := by rfl)
    (hd : s'.done = s.done := by rfl) : Drops s s' :=
  ⟨fun _ hx => ho ▸ hx, hd⟩

lemma tends_drops : Tends ctx fun _ m => Moves Drops m where
  toComposes := composes
  get_bind _ := .get_bind
  setPhase _ := .modify fun _ => .of_eq
  release _ _ := .modify fun _ => .of_eq
  forgetOutput _ _ := .modify fun _ => ⟨SlotTable.erase_sublist.subset, rfl⟩
  forgetInput _ := .modify fun _ => .of_eq

/-- Outputs with slots that are linked to the node are also linked to another one that is not
done. -/
def SectionContext.Cleared (ctx : SectionContext) (id : NodeId) (s : SectionState) : Prop :=
  ∀ x ∈ s.outputSlots, ∀ i, (ctx.graph.net.input? id i).isSome = true →
    ctx.graph.net.inputLink? id i = some x.1 →
      ∃ c ∈ ctx.graph.net.outputLinks x.1.1 x.1.2, c.1 ≠ id ∧ c.1 ∉ s.done

lemma Drops.cleared (h : Drops s s') (hs : ctx.Cleared id s) : ctx.Cleared id s' := by
  intro x hx
  rw [h.done]
  exact hs x (h.outputs hx)

lemma cleared_markDone (h : ctx.Cleared id s) :
    ctx.Cleared id { s with done := s.done.insert id } := by
  intro x hx i hi hl
  obtain ⟨c, hc, hne, hnot⟩ := h x hx i hi hl
  exact ⟨c, hc, hne, fun hd => (OrderedSet.mem_insert.1 hd).elim hnot hne⟩

/-- What still has slots when an input is cleared is linked to another node. -/
lemma exists_of_clearUser {i : Nat} (h : ctx.clearUser id i s = .ok u s') {x : (NodeId × Nat) × Nat}
    (hx : x ∈ s'.outputSlots) (hl : ctx.net.inputLink? id i = some x.1) :
    ∃ c ∈ ctx.net.outputLinks x.1.1 x.1.2, c.1 ≠ id ∧ c.1 ∉ s.done := by
  rw [clearUser, hl] at h
  obtain ⟨_, _, hget, h⟩ := bind_eq_ok.1 h
  cases hget
  cases hg : s.outputSlots.get? x.1 with
  | none =>
    simp only [hg] at h
    cases h
    exact absurd rfl (SlotTable.ne_of_get?_eq_none hg hx)
  | some slot =>
    simp only [hg] at h
    split at h
    · obtain ⟨_, _, hrelease, h⟩ := bind_eq_ok.1 h
      cases hrelease
      cases h
      exact absurd rfl (SlotTable.mem_erase.1 hx).2
    · rename_i hall
      cases h
      obtain ⟨c, hc, hne⟩ := List.all_eq_false.1 (Bool.not_eq_true _ ▸ hall)
      exact ⟨c, hc, by simpa [OrderedSet.contains_iff] using hne⟩

lemma cleared_of_clearUsers (h : ctx.clearUsers id s = .ok u s') : ctx.Cleared id s' := by
  intro x hx i hi hl
  obtain ⟨input, hi⟩ := Option.isSome_iff_exists.1 hi
  obtain ⟨node, hn, hi⟩ := Option.bind_eq_some_iff.1 hi
  rw [clearUsers, hn] at h
  obtain ⟨t, t', _, _, hstep, hend⟩ := exists_of_forM (fun _ => tends_drops.clearUser _) h
    (List.mem_range.2 (List.getElem?_eq_some_iff.1 hi).1)
  rw [hend.done, (tends_drops.clearUser i hstep).done]
  exact exists_of_clearUser hstep (hend.outputs hx) hl

/-! ## One node at a time -/

/-- At most one node got done between two boundaries. -/
def Boundary.Follows (later earlier : Boundary) : Prop :=
  ∃ n, ∀ m ∈ later.state.done, m ∈ earlier.state.done ∨ m = n

/-- In addition, the node that got done was cleared, and what feeds nothing kept its slots. -/
structure Boundary.Clears (ctx : SectionContext) (later earlier : Boundary) : Prop where
  cleared : ∃ n, ∀ m ∈ later.state.done, m ∈ earlier.state.done ∨ m = n ∧ ctx.Cleared n later.state
  retains : ctx.Retains earlier.state later.state

/-- Boundaries, the latest in front, that begin with the given one and follow one another. -/
structure Paced (ctx : SectionContext) (first : Boundary) (past : List Boundary) : Prop where
  clears : past.IsChain (Boundary.Clears ctx)
  first : past.getLast? = some first

lemma Paced.chain {first : Boundary} {past : List Boundary} (h : Paced ctx first past) :
    past.IsChain Boundary.Follows := by
  refine h.clears.imp fun _ _ hn => ?_
  obtain ⟨n, hn⟩ := hn.cleared
  exact ⟨n, fun m hm => (hn m hm).imp_right And.left⟩

/-- What feeds nothing keeps its slots to the end. -/
lemma Paced.retains {first b c : Boundary} {later past : List Boundary}
    (h : Paced ctx first (later ++ b :: past)) (hc : c ∈ past) : ctx.Retains c.state b.state := by
  have : IsTrans Boundary fun b c => ctx.Retains c.state b.state := ⟨fun _ _ _ h h' => h'.trans h⟩
  have hchain := (List.IsChain.right_of_append h.clears).imp fun _ _ hn => hn.retains
  exact (List.pairwise_cons.1 hchain.pairwise).1 c hc

/-- In addition, at most the given node got done since the last boundary, and it was cleared. -/
structure History.Paced (ctx : SectionContext) (first : Boundary) (n? : Option NodeId)
    (h : History) : Prop where
  past : Shading.Paced ctx first h.past
  now : ∀ m ∈ h.now.state.done, (∃ b, h.past.head? = some b ∧ m ∈ b.state.done) ∨ n? = some m
  cleared : ∀ n, n? = some n → ctx.Cleared n h.now.state
  retains : ∀ b, h.past.head? = some b → ctx.Retains b.state h.now.state

/-- The step gets at most the given node done, and leaves it cleared if it was cleared before. -/
structure Finishes (ctx : SectionContext) (n? m? : Option NodeId) (s s' : SectionState) : Prop where
  done : ∀ n ∈ s'.done, n ∈ s.done ∨ m? = some n
  cleared : ∀ n, m? = some n → (n? = some n → ctx.Cleared n s) → ctx.Cleared n s'
  retains : ctx.Retains s s'

/-- From at most the one node done since the last boundary the step leads to at most the other. -/
abbrev Paces (ctx : SectionContext) (first : Boundary) (n? m? : Option NodeId) (m : Chronicle α) :
    Prop :=
  Leads (History.Paced ctx first n?) m (fun _ => History.Paced ctx first m?)
    fun h => Paced ctx first h.past

section Paced

variable {first : Boundary} {n? m? : Option NodeId} {m : Emit α}

lemma leads_lift_paced (hnm : ∀ n, n? = some n → m? = some n)
    (hm : Moves (Finishes ctx n? m?) m) : Paces ctx first n? m? (lift m) := by
  intro h hh
  rw [lift]
  cases hr : m h.now.state with
  | ok a s =>
    refine ⟨hh.past, fun n hn => ?_, fun n hn => (hm hr).cleared n hn (hh.cleared n),
      fun b hb => (hh.retains b hb).trans (hm hr).retains⟩
    exact ((hm hr).done n hn).elim (fun hn => (hh.now n hn).imp_right (hnm n)) .inr
  | error e s => exact hh.past

lemma leads_modify_paced {f : SectionState → SectionState}
    (ho : ∀ s, (f s).outputSlots = s.outputSlots := by intro; rfl)
    (hd : ∀ s, (f s).done = s.done := by intro; rfl) : Paces ctx first n? n? (lift (modify f)) :=
  leads_lift_paced (fun _ hn => hn) <| .modify fun s => ⟨fun _ hn => .inl (hd s ▸ hn),
    fun _ hn hs => (Drops.of_eq (ho s) (hd s)).cleared (hs hn), .of_eq (ho s)⟩

lemma finishes_generateNode : Moves (Finishes ctx none (some id)) (ctx.generateNode id) := by
  intro s u s' h
  have hall : ctx.Requests fun _ => True := fun _ _ => .inr trivial
  have hgains := generateNode_eq_ok hall h
  refine ⟨fun n hn => ?_, fun n hn _ => ?_, hgains.retains⟩
  · obtain hn | hn := (hgains.done n).1 hn
    · exact .inl hn
    · exact .inr (congrArg some (List.mem_singleton.1 hn).symm)
  · obtain rfl := Option.some.inj hn
    obtain ⟨_, _, _, h⟩ := bind_eq_ok.1 h
    obtain ⟨_, _, _, h⟩ := bind_eq_ok.1 h
    obtain ⟨_, _, _, h⟩ := bind_eq_ok.1 h
    obtain ⟨_, _, husers, h⟩ := bind_eq_ok.1 h
    obtain ⟨_, _, hconstants, h⟩ := bind_eq_ok.1 h
    have hcleared := (tends_drops.clearConstants hconstants).cleared (cleared_of_clearUsers husers)
    cases h
    exact cleared_markDone hcleared

lemma finishes_finish : Moves (Finishes ctx none (some id)) (ctx.finish id) := by
  intro s u s' h
  obtain ⟨_, _, hmark, hclear⟩ := bind_eq_ok.1 h
  cases hmark
  have happended : Appended ctx (fun _ => True) _ s' := tends_appended.clearUsers hclear
  refine ⟨fun n hn => ?_, fun n hn _ => Option.some.inj hn ▸ cleared_of_clearUsers hclear,
    happended.retains⟩
  rw [(tends_drops.clearUsers hclear).done] at hn
  exact (OrderedSet.mem_insert.1 hn).imp_right fun e => congrArg some e.symm

/-- One node that got done since the last boundary may be left to this one. -/
lemma leads_mark_paced : Paces ctx first n? none mark := by
  refine .modify fun h hh => ⟨⟨?_, ?_⟩, fun m hm => .inl ⟨h.now, rfl, hm⟩, by simp, ?_⟩
  · refine List.isChain_cons.2 ⟨fun b hb => ⟨⟨n?.getD 0, fun m hm => ?_⟩, hh.retains b hb⟩,
      hh.past.clears⟩
    obtain ⟨b', hb', hm'⟩ | hn := hh.now m hm
    · rw [hb'] at hb
      cases hb
      exact .inl hm'
    · rw [hn]
      exact .inr ⟨rfl, hh.cleared m hn⟩
  · rw [List.getLast?_cons, hh.past.first]
    rfl
  · rintro _ ⟨⟩
    exact .of_eq

/-- The step gets at most one node done between boundaries, and leaves none that got done since. -/
abbrev KeepsPace (ctx : SectionContext) (first : Boundary) (m : Chronicle α) : Prop :=
  Paces ctx first none none m

lemma KeepsPace.lift (hm : Moves (Appended ctx fun _ => True) m) :
    KeepsPace ctx first (lift m) :=
  leads_lift_paced (fun _ hn => hn) fun _ _ _ h =>
    ⟨fun _ hn => .inl ((hm h).done ▸ hn), by simp, (hm h).retains⟩

lemma KeepsPace.mark : KeepsPace ctx first mark := leads_mark_paced

/-- A step that gets one node done is followed by a boundary. -/
lemma leads_node (hm : Moves (Finishes ctx none (some id)) m) :
    Paces ctx first none (some id) (Chronicle.lift m) :=
  leads_lift_paced (fun _ hn => by cases hn) hm

lemma keepsPace_emitSet (nodes : NodeSet) :
    KeepsPace ctx first (emitSet ctx nodes) := by
  refine (KeepsPace.lift (moves_setPhase _)).bind fun _ =>
    Triple.bind (Emission.keeps_run (fun _ _ hh => hh.past) (fun n _ => ?_) _) fun _ =>
      .pure fun _ hh => hh
  have hemit : Moves (Finishes ctx none (some n)) (ctx.emission.emit n) := by
    intro s u s' h
    obtain ⟨_, _, hgen, hphase⟩ := bind_eq_ok.1 h
    cases hphase
    obtain ⟨hdone, hcleared, hretains⟩ := finishes_generateNode hgen
    exact ⟨hdone, hcleared, hretains⟩
  exact (leads_node hemit).bind fun _ => leads_mark_paced

lemma keepsPace_emitInput (i : Nat) : KeepsPace ctx first (emitInput ctx id i) :=
  .ite (fun _ => .pure fun _ hh => hh) fun _ =>
    (KeepsPace.lift (tends_appended.collect ..)).bind fun _ => keepsPace_emitSet _

lemma keepsPace_check (c : SectionState → Bool) : KeepsPace ctx first (check c) :=
  .modify fun _ hh => ⟨hh.past, hh.now, hh.cleared, hh.retains⟩

lemma keepsPace_leaf (node : Node) : KeepsPace ctx first (leaf ctx id node) := by
  have hdone : Paces ctx first (some id) (some id) (Chronicle.lift (markDone id)) := by
    refine leads_lift_paced (fun _ hn => hn) (.modify fun s => ⟨fun n hn => ?_, fun n hn hs => ?_,
      .of_eq⟩)
    · exact (OrderedSet.mem_insert.1 hn).imp_right fun e => congrArg some e.symm
    · obtain rfl := Option.some.inj hn
      exact cleared_markDone (hs rfl)
  refine (keepsPace_check _).bind fun _ => Triple.bind leads_modify_paced fun _ =>
    Triple.bind ?_ fun _ => hdone.bind fun _ => leads_mark_paced
  refine (Triple.forM fun i _ => keepsPace_emitInput i).bind fun _ =>
    (KeepsPace.lift (handles_appended.assignWeight node)).bind fun _ =>
      (leads_node finishes_generateNode).bind fun _ => Triple.bind leads_modify_paced fun _ =>
        leads_modify_paced

lemma walks_keepsPace : Walks ctx (fun _ _ => History.Paced ctx first none)
    fun h => Paced ctx first h.past where
  fail hh := hh.past
  floor := keepsPace_check _
  start _ := .pre (fun _ => And.left) leads_modify_paced
  leaf _ := keepsPace_leaf _
  collect _ _ := KeepsPace.lift (tends_appended.collect ..)
  side _ _ := KeepsPace.lift (tends_appended.collectSide _)
  shared _ _ _ _ := KeepsPace.lift (tends_appended.sharedNodes ..)
  emitSet := keepsPace_emitSet
  factor _ _ := KeepsPace.lift (handles_appended.assignInputAt _)
  jump hm := .of_get fun _ => Triple.bind leads_modify_paced fun _ => (hm 0).bind fun _ =>
    (keepsPace_check _).bind fun _ => Triple.bind leads_modify_paced fun _ => .pure fun _ hh => hh
  forget _ := leads_modify_paced
  finish _ _ := (leads_node finishes_finish).bind fun _ => leads_mark_paced

lemma keepsPace_enterBump : KeepsPace ctx first (enterBump ctx) := by
  refine (KeepsPace.lift handles_appended.enterBump).bind fun state =>
    Triple.bind ?_ fun _ => KeepsPace.mark.bind fun _ => .pure fun _ hh => hh
  exact .modify fun _ hh => ⟨hh.past, hh.now, hh.cleared, hh.retains⟩

lemma keepsPace_leaveBump (state : Option Nat) : KeepsPace ctx first (leaveBump state) :=
  (KeepsPace.lift (handles_appended.leaveBump state)).bind fun _ =>
    .modify fun _ hh => ⟨hh.past, hh.now, hh.cleared, hh.retains⟩

/-- From the empty section on, at most one node gets done between two boundaries.  The last boundary
is the finished section. -/
theorem leads_compile_paced : Leads (fun h => h = ⟨first, [], true⟩ ∧ first.state.done = .empty)
    (Chronicle.compile ctx) (fun _ h => Paced ctx first h.past ∧ h.past.head? = some h.now)
      fun h => Paced ctx first h.past := by
  have hbegin : Leads (fun h => h = ⟨first, [], true⟩ ∧ first.state.done = .empty) mark
      (fun _ => History.Paced ctx first none) fun h => Paced ctx first h.past := by
    refine .modify ?_
    rintro h ⟨rfl, hempty⟩
    refine ⟨⟨.singleton _, rfl⟩, fun m hm => absurd (hempty ▸ hm) (OrderedSet.not_mem_empty m),
      by simp, ?_⟩
    rintro _ ⟨⟩
    exact .of_eq
  have hask : KeepsPace ctx first (Chronicle.lift
      (ofGraph (ctx.graph.requireInput ctx.graph.output ctx.entry.terminal))) :=
    KeepsPace.lift (composes.ofGraph _)
  refine hbegin.bind fun _ => hask.bind fun ⟨i, ty⟩ => keepsPace_enterBump.bind fun state => ?_
  have hfinished : Leads (History.Paced ctx first none) (do
      Chronicle.lift (setPhase .finished)
      mark) (fun _ h => Paced ctx first h.past ∧ h.past.head? = some h.now)
      fun h => Paced ctx first h.past := by
    refine (KeepsPace.lift (moves_setPhase _)).bind fun _ h hh => ⟨?_, rfl⟩
    exact (KeepsPace.mark h hh).past
  have hend : Leads (History.Paced ctx first none) (conclude ctx state)
      (fun _ h => Paced ctx first h.past ∧ h.past.head? = some h.now)
      fun h => Paced ctx first h.past := by
    have hstop : KeepsPace ctx first (Chronicle.lift (op .stop 0 0 0)) := leads_modify_paced
    refine (KeepsPace.lift (moves_setPhase _)).bind fun _ =>
      (KeepsPace.lift (handles_appended.plain.closing.emitOutput)).bind fun _ =>
        leads_mark_paced.bind fun _ => (keepsPace_leaveBump state).bind fun _ => ?_
    exact .ite (fun _ => hstop.bind fun _ => hfinished) fun _ => hfinished
  cases ctx.net.inputLink? ctx.graph.output i with
  | none => exact hend
  | some source =>
    have hflags : ∀ f, KeepsPace ctx first (Chronicle.lift (modifyFlags f)) := fun _ =>
      leads_modify_paced
    exact (hflags _).bind fun _ => (walks_keepsPace.visit _ 0 _ _).bind fun _ => hend

end Paced

lemma paced_boundaries {ctx : SectionContext} (record : Bool) (ids : AttributeIds) :
    Paced ctx ⟨.new record ids, none⟩ (ctx.boundaries record ids) := by
  rw [boundaries]
  split
  · rename_i h hrun
    exact (leads_compile_paced.of_ok ⟨rfl, rfl⟩ hrun).1
  · rename_i h hrun
    exact leads_compile_paced.of_error ⟨rfl, rfl⟩ hrun

end Shading
