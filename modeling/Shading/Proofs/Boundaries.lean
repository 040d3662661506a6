import Shading.Proofs.BoundaryOrder
import Shading.Proofs.Ownership
import Shading.Proofs.Recompile

/-!
# The owners at the boundaries

Between two nodes the owners of the slots of a section are exactly the outputs that have been
assigned, the constants that have been loaded, and the shading state if it is saved.  Nodes keep the
ledger of the owners (`keeps_generateNode`), and here this is carried through the walk: through the
passes that emit sets of nodes, and by induction on the fuel through the closures.

Displacement ignores bumps, so what an input depends on has no bumps among it, and only the node
that feeds the terminal may be one.  That node is no mix or sum of closures, since the terminal
takes no closure, and it is the last to be emitted.
-/

namespace Shading

open SectionContext Emit Chronicle Network

variable {i : Nat} {source : NodeId × Nat}

/-! ## Boundaries -/

/-- At the boundary the owners are the outputs, the constants and what is reserved. -/
def Boundary.Exact (ctx : SectionContext) (b : Boundary) : Prop :=
  Owned ctx (reservedRange b.reserved) b.state

/-- The number of owners of a slot: the outputs that have it, the constants that were loaded into it
for inputs without a link, and the shading state if it is reserved for that. -/
def Boundary.owners (ctx : SectionContext) (b : Boundary) (k : Nat) : Nat :=
  coverage (b.state.outputSlots.map ctx.outputRange) k +
    coverage ((b.state.inputSlots.filter ctx.isLoaded).map ctx.inputRange) k +
      coverage (reservedRange b.reserved) k

/-- The owners are known, and were at every boundary so far. -/
structure History.Exact (ctx : SectionContext) (S : NodeId → Prop) (r : Option Nat) (h : History) :
    Prop where
  reserved : h.now.reserved = r
  now : Tended ctx S (reservedRange r) h.now.state
  past : ∀ b ∈ h.past, b.Exact ctx

/-- The owners were known at every boundary, and what is left can be replayed. -/
structure History.Broken (ctx : SectionContext) (h : History) : Prop where
  now : Failed h.now.state
  past : ∀ b ∈ h.past, b.Exact ctx

variable {ctx : SectionContext} {S T : NodeId → Prop} {r : Option Nat} {held : List SlotRange}
  {id : NodeId} {α : Type}

open History (Exact Broken)

namespace History.Exact

variable {h : History}

lemma mono (hh : Exact ctx S r h) (hST : ∀ n, S n → T n) : Exact ctx T r h :=
  ⟨hh.reserved, hh.now.mono hST, hh.past⟩

lemma broken (hh : Exact ctx S r h) : Broken ctx h := ⟨hh.now.replays, hh.past⟩

/-- Which bumps have slots is only known of displacement. -/
lemma of_ne (hh : Exact ctx S r h) (hd : ctx.entry ≠ .displacement) : Exact ctx T r h :=
  ⟨hh.reserved, ⟨hh.now.toOwned, fun h => absurd h hd⟩, hh.past⟩

end History.Exact

lemma leads_lift {m : Emit α} {Q : α → SectionState → Prop}
    (hm : Leads (Tended ctx S (reservedRange r)) m Q Failed) :
    Leads (Exact ctx S r) (lift m)
      (fun a h => h.now.reserved = r ∧ Q a h.now.state ∧ ∀ b ∈ h.past, b.Exact ctx)
      (Broken ctx) := by
  intro h hh
  rw [lift]
  cases hr : m h.now.state with
  | ok a s => exact ⟨hh.reserved, hm.of_ok hh.now hr, hh.past⟩
  | error e s => exact ⟨hm.of_error hh.now hr, hh.past⟩

lemma Keeps.leads {m : Emit α} (hm : Keeps ctx S m) :
    Leads (Exact ctx S r) (lift m) (fun _ => Exact ctx S r) (Broken ctx) :=
  (leads_lift (hm _)).post fun _ _ hs => ⟨hs.1, hs.2.1, hs.2.2⟩

lemma leads_check (c : SectionState → Bool) :
    Leads (Exact ctx S r) (check c) (fun _ => Exact ctx S r) (Broken ctx) :=
  .modify fun _ hh => ⟨hh.reserved, hh.now, hh.past⟩

lemma leads_mark : Leads (Exact ctx S r) mark (fun _ => Exact ctx S r) (Broken ctx) := by
  refine .modify fun h hh => ⟨hh.reserved, hh.now, fun b hb => ?_⟩
  obtain rfl | hb := List.mem_cons.1 hb
  · rw [Boundary.Exact, hh.reserved]
    exact hh.now.toOwned
  · exact hh.past b hb

/-! ## Sets of nodes -/

/-- The node is not a bump while displacement is compiled. -/
def SectionContext.Free (ctx : SectionContext) (n : NodeId) : Prop :=
  ctx.entry = .displacement → ¬ ctx.IsBump n

lemma free_of_link (hskip : ctx.skips id i = false)
    (hl : ctx.net.inputLink? id i = some source) : ctx.Free source.1 := by
  intro hd hb
  rw [skips_iff.2 ⟨hd, source, hl, hb⟩] at hskip
  cases hskip

lemma free_of_ne (hd : ctx.entry ≠ .displacement) (n : NodeId) : ctx.Free n := fun h => absurd h hd

/-- What can be reached from a node without ignored links is no bump either. -/
lemma Way.free {P : NodeId → Prop} {a b : NodeId} (w : Way (ctx.net.sources ctx.skips) P a b)
    (ha : ctx.Free a) : ctx.Free b := by
  induction w with
  | here _ => exact ha
  | step _ hab _ ih =>
    refine ih ?_
    rw [Network.sources] at hab
    split at hab
    · cases hab
    · obtain ⟨i, _, hi⟩ := List.mem_filterMap.1 hab
      split at hi
      · cases hi
      · rename_i hskip
        obtain ⟨source, hl, rfl⟩ := Option.map_eq_some_iff.1 hi
        exact free_of_link (by simpa using hskip) hl

/-- Displacement does not depend on bumps. -/
lemma leads_collect (i : Nat) (avoid : Option NodeId) :
    Leads (Tended ctx S held) (ctx.collect id i avoid)
      (fun nodes s => Tended ctx S held s ∧ ∀ n ∈ nodes, ctx.Free n) Failed := by
  refine (keeps_setPhase _ held).bind fun _ => .get_bind fun s hs => .pure ?_
  rintro t rfl
  refine ⟨hs, fun n hn => ?_⟩
  obtain hn | ⟨first, hs, w⟩ := mem_dependencies.1 hn
  · exact absurd hn (OrderedSet.not_mem_empty _)
  · obtain ⟨hskip, o, hl⟩ := source?_eq_some_iff.1 hs
    exact w.free (free_of_link hskip hl)

lemma keeps_collect (i : Nat) (avoid : Option NodeId) : Keeps ctx S (ctx.collect id i avoid) :=
  fun _ => (leads_collect i avoid).post fun _ _ hs => hs.1

section Nodes

variable (hnet : ctx.net.Scripted)

include hnet

/-- Emitting nodes that are not ignored keeps the owners known. -/
lemma leads_emitSet {nodes : NodeSet} (hnodes : ∀ n ∈ nodes, ctx.Free n) :
    Leads (Exact ctx (fun _ => False) r) (emitSet ctx nodes)
      (fun _ => Exact ctx (fun _ => False) r) (Broken ctx) := by
  refine (keeps_setPhase _).leads.bind fun _ => Triple.bind (Emission.keeps_run ?_ ?_ 0) fun _ =>
    .pure fun _ hh => hh
  · exact fun _ _ hh => hh.broken
  · intro n hn
    have hkeeps : Keeps ctx (fun _ => False) (ctx.emission.emit n) :=
      keeps_composes.bind (keeps_generateNode hnet (hnodes n hn) fun _ _ _ _ _ h => h) fun _ =>
        keeps_setPhase _
    exact hkeeps.leads.bind fun _ => leads_mark

lemma leads_emitInput (i : Nat) :
    Leads (Exact ctx (fun _ => False) r) (emitInput ctx id i)
      (fun _ => Exact ctx (fun _ => False) r) (Broken ctx) := by
  refine .ite (fun _ => .pure fun _ hh => hh) fun _ => ?_
  refine (leads_lift (leads_collect i none)).bind fun nodes h hh => ?_
  exact leads_emitSet hnet hh.2.1.2 h ⟨hh.1, hh.2.1.1, hh.2.2⟩

/-! ## Closures -/

omit hnet in
lemma keeps_markClosure (n : NodeId) : Keeps ctx S (markClosure n) :=
  fun _ => .modify fun _ hs => hs.congr rfl rfl rfl

omit hnet in
lemma keeps_assignWeight (node : Node) : Keeps ctx S (ctx.assignWeight id node) := by
  have h : Composes fun _ m => Keeps ctx S m := keeps_composes
  unfold assignWeight
  split
  · exact h.pure _
  · exact h.ite (fun _ => h.bind (keeps_assignInputAt _) fun _ _ => .modify fun _ hs => hs.congr rfl rfl rfl)
      fun _ => h.pure _

lemma ne_of_bump_feeds (hl : ctx.net.inputLink? id i = some source) (hb : ctx.IsBump source.1) :
    source.1 ≠ id := by
  rintro rfl
  obtain ⟨k, hk, hspecial⟩ := hb
  rw [kind?_eq_form?] at hk
  obtain ⟨f, hf, rfl⟩ := Option.map_eq_some_iff.1 hk
  exact hnet.apart (feeds_of_inputLink? hl) hf hspecial rfl

/-- A closure, or whatever else feeds a terminal, is emitted after all that it depends on. -/
lemma leads_leaf (node : Node) :
    Leads (Exact ctx (fun _ => False) r) (leaf ctx id node) (fun _ => Exact ctx (· = id) r)
      (Broken ctx) := by
  have hnode : Keeps ctx (· = id) (ctx.generateNode id) :=
    keeps_generateNode hnet (fun _ _ => rfl) fun _ _ _ hl hb => ne_of_bump_feeds hnet hl hb
  have hweight : Keeps ctx (· = id) (modify fun s => { s with mixWeight := Stack.invalid }) :=
    fun _ => .modify fun _ hs => hs.congr rfl rfl rfl
  refine (leads_check _).bind fun _ => (keeps_markClosure id).leads.bind fun _ =>
    Triple.bind ?_ fun _ => (keeps_markDone id).leads.bind fun _ => leads_mark
  refine (Triple.forM fun i _ => leads_emitInput hnet i).bind fun _ =>
    (keeps_assignWeight node).leads.bind fun _ => ?_
  refine Triple.pre (fun h hh => hh.mono fun _ => False.elim) (hnode.leads.bind fun _ => ?_)
  exact hweight.leads.bind fun _ => (keeps_modifyFlags _).leads

omit hnet in
/-- The slot of a linked input may be forgotten: it belongs to what feeds the input. -/
lemma keeps_forgetInput (hl : ctx.link? id i = some source) :
    Keeps ctx S (modify fun s => { s with inputSlots := s.inputSlots.erase (id, i) }) := by
  refine fun held => .modify fun s hs =>
    ⟨⟨hs.outputs, hs.inputs.sublist SlotTable.erase_sublist, ?_⟩, hs.bumps⟩
  have hlinked : ∀ slot, ctx.isLoaded ((id, i), slot) = false := by simp [isLoaded, hl]
  dsimp only [holders]
  rw [SlotTable.filter_erase hlinked]
  exact hs.ledger

lemma leads_finish :
    Leads (Exact ctx (fun _ => False) r) (do
        lift (ctx.finish id)
        mark)
      (fun _ => Exact ctx (fun _ => False) r) (Broken ctx) := by
  have hfinish : Keeps ctx (fun _ => False) (ctx.finish id) :=
    keeps_composes.bind (keeps_markDone id) fun _ => keeps_clearUsers hnet fun _ _ _ _ _ h => h
  exact hfinish.leads.bind fun _ => leads_mark

/-- A walk that ignores no links keeps the owners known. -/
lemma walks_exact (hd : ctx.entry ≠ .displacement) :
    Walks ctx (fun _ _ => Exact ctx (fun _ => False) r) (Broken ctx) where
  fail hh := hh.broken
  floor := leads_check _
  start _ := .pre (fun _ => And.left) (keeps_markClosure _).leads
  leaf _ := (leads_leaf hnet _).post fun _ _ hh => hh.of_ne hd
  collect _ i := (keeps_collect i none).leads
  side _ i := (keeps_composes.collectSide (keeps_collect · none) i).leads
  shared _ _ side1 side2 := (keeps_composes.sharedNodes keeps_collect side1 side2).leads
  emitSet _ := leads_emitSet hnet fun n _ => free_of_ne hd n
  factor _ i := (keeps_assignInputAt i).leads
  jump hm := by
    have hpatch : ∀ p, Keeps ctx (fun _ => False) (patchJump p) := fun _ _ =>
      .modify fun _ hs => hs.congr rfl rfl rfl
    exact .of_get fun _ => (keeps_op _ _ _ _).leads.bind fun _ => (hm 0).bind fun _ =>
      (leads_check _).bind fun _ => (hpatch _).leads.bind fun _ => .pure fun _ hh => hh
  forget hfactor := by
    obtain ⟨_, hlinked⟩ := Option.filter_eq_some_iff.1 hfactor
    obtain ⟨source, hl⟩ := Option.isSome_iff_exists.1 hlinked
    refine (keeps_forgetInput (link?_eq_some_iff.2 ⟨?_, hl⟩)).leads
    rw [← Bool.not_eq_true, skips_iff]
    exact fun h => hd h.1
  finish _ _ := leads_finish hnet

/-- The walk keeps the owners known.  While displacement is compiled it does not begin with a mix or
sum of closures, so it is over with the node that it begins with. -/
theorem leads_visit (root : NodeId) (fuel : Nat) (id : NodeId)
    (hleaf : ctx.entry = .displacement → ∀ node, ctx.net.node? id = some node →
      node.kind.special ≠ .combineClosure) :
    Leads (Exact ctx (fun _ => False) r) (visit ctx root fuel id)
      (fun _ => Exact ctx (· = id) r) (Broken ctx) := by
  have hnone : ∀ h, Exact ctx (fun _ => False) r h → Exact ctx (· = id) r h :=
    fun h hh => hh.mono fun _ => False.elim
  by_cases hd : ctx.entry = .displacement
  · cases fuel with
    | zero => exact (leads_check _).post fun _ => hnone
    | succ fuel =>
      refine .of_get fun h => ?_
      refine .ite (fun _ => .pure hnone) fun _ => ?_
      refine leads_ask (fun _ hh => hh.broken) fun node hnode => ?_
      refine .ite (fun _ => leads_leaf hnet node) fun hc => ?_
      exact absurd (hleaf hd node (Graph.require_eq_ok_iff.1 hnode)) hc
  · exact ((walks_exact hnet hd).visit root 0 fuel id).post fun _ => hnone

end Nodes

/-! ## Sections -/

lemma leads_enterBump :
    Leads (Exact ctx S none) (enterBump ctx) (fun state => Exact ctx S state) (Broken ctx) := by
  have henter : Leads (Tended ctx S (reservedRange none)) ctx.enterBump
      (fun state => Tended ctx S (reservedRange state)) Failed := by
    refine .ite (fun _ => ?_) fun _ => .pure fun _ hs => hs
    have hclaim : Leads (fun s => Tended ctx S [] s ∧ True) (claim bumpStateSize) _ Failed :=
      leads_claim (fun _ _ => True) bumpStateSize
    refine .pre (fun _ hs => ⟨hs, trivial⟩) (hclaim.bind fun slot => ?_)
    exact .pre (fun _ hs => hs.1) ((keeps_op _ _ _ _ _).bind fun _ => .pure fun _ hs => hs)
  refine (leads_lift henter).bind fun state => ?_
  have hreserve : Leads (fun h => h.now.reserved = none ∧
      Tended ctx S (reservedRange state) h.now.state ∧ ∀ b ∈ h.past, b.Exact ctx)
      (reserve state) (fun _ => Exact ctx S state) (Broken ctx) :=
    .modify fun h hh => ⟨rfl, hh.2.1, hh.2.2⟩
  exact hreserve.bind fun _ => leads_mark.bind fun _ => .pure fun _ hh => hh

lemma leads_leaveBump (state : Option Nat) :
    Leads (Exact ctx S state) (leaveBump state) (fun _ => Exact ctx S none) (Broken ctx) := by
  have hleave : Leads (Tended ctx S (reservedRange state)) (leaveBump state)
      (fun _ => Tended ctx S (reservedRange none)) Failed := by
    cases state with
    | none => exact .pure fun _ hs => hs
    | some slot => exact (keeps_op _ _ _ _ _).bind fun _ => leads_release slot bumpStateSize
  exact (leads_lift hleave).bind fun _ => .modify fun h hh => ⟨rfl, hh.2.1, hh.2.2⟩

/-- What feeds the terminal of a displacement or a bump makes no closure. -/
lemma special_ne_combineClosure (hg : ctx.graph.Scripted)
    (hd : ctx.entry = .displacement ∨ ctx.entry = .bump) {ty : SocketType}
    (hi : ctx.graph.requireInput ctx.graph.output ctx.entry.terminal = .ok (i, ty))
    {root : NodeId} {o : Nat} (hl : ctx.net.inputLink? ctx.graph.output i = some (root, o))
    {node : Node} (hn : ctx.net.node? root = some node) :
    node.kind.special ≠ .combineClosure := by
  intro hc
  have hform := hg.net.form?_of_isJunction hg.output rfl
  obtain ⟨s, t, hs, ht, hst⟩ := hg.net.fit (feeds_of_inputLink? hl) hform rfl
  have htarget : t = .vector ∨ t = .normal := by
    obtain ⟨output, hout, hidx, _⟩ := Graph.requireInput_eq_ok hi
    have hsame := hform
    rw [form?_of_node? hout, Option.some.injEq] at hsame
    rw [Node.inputIndex?_eq_of_form hsame] at hidx
    rw [targetType?, hform] at ht
    obtain hd | hd := hd
    all_goals
      rw [hd] at hidx
      cases hidx
      cases ht
    · exact .inl rfl
    · exact .inr rfl
  have hsource : s = .closure := by
    have hj : node.kind.isJunction = true := by simp [NodeKind.isJunction, hc]
    rw [sourceType?, hg.net.form?_of_isJunction (kind?_of_node? hn) hj, Option.bind_some] at hs
    have houts : (Node.ofKind node.kind).form.outputs = [⟨"Closure", .closure⟩] := by
      obtain hk | hk := special_eq_combineClosure.1 hc
      all_goals
        rw [hk]
        rfl
    obtain ⟨out, hout, rfl⟩ := Option.map_eq_some_iff.1 hs
    rw [houts] at hout
    obtain rfl := List.mem_singleton.1 (List.mem_of_getElem? hout)
    rfl
  rw [hsource] at hst
  obtain rfl | rfl := htarget <;> cases hst

/-- The construction keeps the owners known from beginning to end. -/
theorem leads_compile (hg : ctx.graph.Scripted) :
    Leads (Exact ctx (fun _ => False) none) (compile ctx)
      (fun _ => Exact ctx (fun _ => True) none) (Broken ctx) := by
  refine leads_mark.bind fun _ => leads_ask (fun _ hh => hh.broken) fun ⟨i, ty⟩ hi =>
    leads_enterBump.bind fun state => ?_
  have hend : ∀ S, Leads (Exact ctx S state) (conclude ctx state)
      (fun _ => Exact ctx (fun _ => True) none) (Broken ctx) := by
    intro S
    have hfinished : Leads (Exact ctx S none) (do
        lift (setPhase .finished)
        mark) (fun _ => Exact ctx (fun _ => True) none) (Broken ctx) :=
      (keeps_setPhase _).leads.bind fun _ =>
        leads_mark.post fun _ _ hh => hh.mono fun _ _ => trivial
    refine (keeps_setPhase _).leads.bind fun _ => closing_keeps.emitOutput.leads.bind fun _ =>
      leads_mark.bind fun _ => (leads_leaveBump state).bind fun _ => ?_
    exact .ite (fun _ => (keeps_op _ _ _ _).leads.bind fun _ => hfinished) fun _ => hfinished
  cases hl : ctx.net.inputLink? ctx.graph.output i with
  | none => exact hend _
  | some source =>
    obtain ⟨root, o⟩ := source
    refine (keeps_modifyFlags _).leads.bind fun _ =>
      (leads_visit hg.net root _ root ?_).bind fun _ => hend _
    exact fun hd node hn => special_ne_combineClosure hg (.inl hd) hi hl hn

lemma exact_start (record : Bool) (ids : AttributeIds) :
    Exact ctx S none (.start record ids) where
  reserved := rfl
  now := ⟨⟨List.nodup_nil, List.nodup_nil, .new record⟩, fun _ _ he => nomatch he⟩
  past _ hb := nomatch hb

lemma exact_of_mem_boundaries (hg : ctx.graph.Scripted) {record : Bool} {ids : AttributeIds}
    {b : Boundary} (hb : b ∈ ctx.boundaries record ids) : b.Exact ctx := by
  rw [boundaries] at hb
  split at hb
  · rename_i h hrun
    exact ((leads_compile hg).of_ok (exact_start record ids) hrun).past b hb
  · rename_i h hrun
    exact ((leads_compile hg).of_error (exact_start record ids) hrun).past b hb

lemma head?_boundaries (hg : ctx.graph.Scripted) {record : Bool} {ids : AttributeIds} {u : Unit}
    {t : SectionState} (h : ctx.compile (.new record ids) = .ok u t) :
    (ctx.boundaries record ids).head? = some ⟨t, none⟩ := by
  have herase := erases_compile ctx (.start record ids)
  have hnew : ctx.compile (History.start record ids).now.state = .ok u t := h
  rw [hnew] at herase
  rw [boundaries]
  cases hrun : compile ctx (.start record ids) with
  | error e h =>
    rw [hrun] at herase
    cases herase
  | ok a h =>
    rw [hrun] at herase
    cases herase
    have hexact := (leads_compile hg).of_ok (exact_start record ids) hrun
    have hlast := (leads_compile_paced.of_ok ⟨rfl, rfl⟩ hrun).2
    rw [hlast, ← hexact.reserved]

/-- What is left of a section can be replayed, whether it failed or not. -/
lemma replays_compile (hg : ctx.graph.Scripted) (record : Bool) (ids : AttributeIds) :
    (left (ctx.compile (.new record ids))).stack.Replays := by
  have herase := erases_compile ctx (.start record ids)
  cases hrun : compile ctx (.start record ids) with
  | ok a h =>
    rw [hrun] at herase
    exact herase ▸ ((leads_compile hg).of_ok (exact_start record ids) hrun).now.replays
  | error e h =>
    rw [hrun] at herase
    exact herase ▸ ((leads_compile hg).of_error (exact_start record ids) hrun).now

/-! ## Traces -/

/-- What was recorded can be replayed up to any point. -/
def SlotEvent.InOrder (trace : List SlotEvent) : Prop :=
  ∀ past, past <+: trace → ∃ live, SlotEvent.replayAll past = some live

lemma Stack.Replays.takeTrace {s : Stack} (h : s.Replays) : SlotEvent.InOrder s.takeTrace.1 := by
  intro past hpast
  rw [Stack.takeTrace] at hpast
  cases ht : s.trace with
  | none =>
    rw [ht] at hpast
    obtain rfl := List.prefix_nil.1 hpast
    exact ⟨_, rfl⟩
  | some trace =>
    rw [ht] at hpast
    exact SlotEvent.replayAll_of_isPrefix hpast (h trace ht)

namespace SectionResults

variable {options : BytecodeOptions} {s : Shader} {r : SectionResults}

def InOrder (r : SectionResults) : Prop :=
  ∀ e trace, r.traces.get? e = some trace → SlotEvent.InOrder trace

lemma InOrder.addEntry (h : r.InOrder) (hs : s.graph.Scripted) (e : EntryPoint) :
    (r.addEntry options s e).InOrder := by
  intro e' trace ht
  rw [addEntry_eq] at ht
  split at ht
  · have hadd : ∀ x, (r.addOutcome options e x).traces =
        if options.recordTrace then r.traces.insert e (left x).stack.takeTrace.1 else r.traces := by
      intro x
      cases x <;> rfl
    rw [hadd] at ht
    split at ht
    · rw [EntryTable.insert, EntryTable.get?_set] at ht
      split at ht
      · cases ht
        have hg : (s.sectionContext options e).graph.Scripted := hs
        exact (replays_compile hg options.recordTrace r.ids).takeTrace
      · exact h e' trace ht
    · exact h e' trace ht
  · exact h e' trace ht

end SectionResults

namespace Shader

lemma scripted_prepare {s : Shader} (hs : s.graph.Assembled) : s.prepare.graph.Scripted :=
  (hs.finalize s.finalizeOptions).scripted

/-- At every boundary between nodes, in the compilation of any entry point, the users of a slot are
counted exactly: the allocator has as many as there are owners.  Outputs have slots in common only
if they got them from the same output, through bumps that pass on their normal.  What is recorded
never writes to a live slot and never reads a dead one, also if the section fails, and at most 255
slots are alive.  Only the slots of the table are counted and replayed: the part of a run that would
stand behind its end is left out of account.

The boundaries are those of the compilation: without them it is the compilation itself, and they
lead from the empty section to the finished one with at most one node between two of them. -/
theorem count_eq_owners {s : Shader} (hs : s.graph.Assembled) (options : BytecodeOptions)
    (ids : AttributeIds) :
    (∀ e, let ctx := s.prepare.sectionContext options e
      let new := SectionState.new options.recordTrace ids
      let bs := ctx.boundaries options.recordTrace ids
      (∀ b ∈ bs,
        (∀ k < Stack.size, b.state.stack.count k = b.owners ctx k) ∧
        (∀ x ∈ b.state.outputSlots, ∀ y ∈ b.state.outputSlots, ∀ k, (ctx.outputRange x).Has k →
          (ctx.outputRange y).Has k → ctx.Akin x.1 y.1) ∧
        b.state.stack.live ≤ 255) ∧
      History.erase (Chronicle.compile ctx (.start options.recordTrace ids)) = ctx.compile new ∧
      bs.getLast? = some ⟨new, none⟩ ∧ bs.IsChain Boundary.Follows ∧
      ∀ u t, ctx.compile new = .ok u t → bs.head? = some ⟨t, none⟩) ∧
    ∀ e trace, (s.compileBytecode options ids).1.traces.get? e = some trace →
      ∀ past, past <+: trace → ∃ live, SlotEvent.replayAll past = some live ∧ live.card ≤ 255 := by
  have hg := scripted_prepare hs
  refine ⟨fun e => ⟨fun b hb => ?_, erases_compile _ _, (paced_boundaries _ _).first,
    (paced_boundaries _ _).chain, fun u t h => head?_boundaries hg h⟩,
    fun e trace ht past hpast => ?_⟩
  · have hb' : Owned _ _ _ := exact_of_mem_boundaries hg hb
    exact ⟨fun k hk => hb'.count hk, fun x hx y hy k hk hk' => hb'.akin hx hy hk hk',
      b.state.stack.live_le_size⟩
  · have hsections : (s.prepare.compileSections s.needsBump options ids).InOrder :=
      List.foldlRecOn (motive := SectionResults.InOrder) _ _ (fun e trace h => by simp at h)
        fun r hr e _ => hr.addEntry hg e
    obtain ⟨live, hlive⟩ := hsections e trace ht past hpast
    exact ⟨live, hlive, live.card_le_univ.trans_eq (Fintype.card_fin _)⟩

/-- A script gives the color of a surface, and its normal through a bump without strength. -/
def relayed : Shader :=
  let script : Node := ⟨.script (.file "normals.oso"), [], [⟨"N", .normal⟩]⟩
  let g := (((Graph.new.addNode script).2.add (.bump false false)).2.add .diffuseBsdf).2
  let g := (g.setInput 2 "Strength" (.float 0)).toOption.getD g
  let g := (g.connected 1 "N" 2 "Normal").connected 2 "Normal" 3 "Normal"
  withGraph "" ((g.connected 1 "N" 3 "Color").connected 3 "BSDF" 0 "Surface")

lemma relayed_assembled : relayed.graph.Assembled := by
  refine .connected (.connected (.connected (.connected (.attempt ?_ fun _ h => ?_))))
  · exact .edit (.edit (.addScript .new rfl (by decide) (by decide)) (.add _)) (.add _)
  · exact .setInput trivial h

/-- The script and the bump have the same slots, each with two users. -/
theorem relayed_owners :
    let ctx := relayed.prepare.sectionContext ⟨false, true⟩ .surface
    relayed.graph.Assembled ∧ ∃ b ∈ ctx.boundaries true .empty,
      b.state.outputSlots = [((2, 0), 0), ((1, 0), 0)] ∧ b.state.stack.count 2 = 2 ∧
        b.state.stack.count 2 = b.owners ctx 2 ∧ ctx.Akin (2, 0) (1, 0) := by
  intro ctx
  obtain ⟨b, hb, hslots, hcount⟩ : ∃ b ∈ ctx.boundaries true .empty,
      b.state.outputSlots = [((2, 0), 0), ((1, 0), 0)] ∧ b.state.stack.count 2 = 2 := by
    decide +kernel
  have hbump : (ctx.outputRange ((2, 0), 0)).Has 2 := by decide +kernel
  have hscript : (ctx.outputRange ((1, 0), 0)).Has 2 := by decide +kernel
  obtain ⟨howners, hakin, _⟩ :=
    ((count_eq_owners relayed_assembled ⟨false, true⟩ .empty).1 .surface).1 b hb
  rw [hslots] at hakin
  refine ⟨relayed_assembled, b, hb, hslots, hcount, howners 2 (by decide), ?_⟩
  exact hakin ((2, 0), 0) (by simp) ((1, 0), 0) (by simp) 2 hbump hscript

end Shader

/-! ## What is still held -/

/-- An output that has slots and feeds a node that is done also feeds one that is not, or it has got
its slots since.  The induction is on the boundaries before. -/
lemma exists_unread (hv : ctx.net.Valid) {b : Boundary} {past : List Boundary}
    (hchain : (b :: past).IsChain (Boundary.Clears ctx))
    (hfirst : ∀ c ∈ (b :: past).getLast?, c.state.done = .empty) {x : (NodeId × Nat) × Nat}
    (hx : x ∈ b.state.outputSlots) {n : NodeId}
    (hl : ctx.net.inputLink? n i = some x.1) (hn : n ∈ b.state.done) :
    (∃ m j, ctx.net.inputLink? m j = some x.1 ∧ m ∉ b.state.done) ∨
      ∃ c ∈ past, n ∈ c.state.done ∧ x ∉ c.state.outputSlots := by
  induction past generalizing b n i with
  | nil =>
    rw [hfirst b rfl] at hn
    exact absurd hn (OrderedSet.not_mem_empty n)
  | cons c past ih =>
    obtain ⟨⟨⟨k, hk⟩, _⟩, hrest⟩ := List.isChain_cons_cons.1 hchain
    -- Whatever got done last was cleared.
    have hlast : ∀ {m j}, ctx.net.inputLink? m j = some x.1 → m ∈ b.state.done →
        m ∉ c.state.done → ∃ m j, ctx.net.inputLink? m j = some x.1 ∧ m ∉ b.state.done := by
      intro m j hm hd hnot
      obtain ⟨rfl, hcleared⟩ := (hk m hd).resolve_left hnot
      obtain ⟨_, hkind⟩ := (hv.joins (feeds_of_inputLink? hm)).target
      obtain ⟨node, hnode, _⟩ := kind?_eq_some_iff.1 hkind
      have hin : (ctx.net.input? m j).isSome = true := by
        simp [input?, hnode, hv.lt_length_of_inputLink? hnode hm]
      obtain ⟨a, ha, _, hnot⟩ := hcleared x hx j hin hm
      exact ⟨a.1, a.2, hv.tidy.inputLink?_eq_some_iff.2 (mem_outputLinks.1 ha), hnot⟩
    by_cases hold : n ∈ c.state.done
    · by_cases hx' : x ∈ c.state.outputSlots
      · obtain ⟨m, j, hm, hnot⟩ | ⟨d, hd, h⟩ := ih hrest (by simpa using hfirst) hx' hl hold
        · refine .inl ?_
          by_cases hmd : m ∈ b.state.done
          · exact hlast hm hmd hnot
          · exact ⟨m, j, hm, hmd⟩
        · exact .inr ⟨d, .tail _ hd, h⟩
      · exact .inr ⟨c, .head _, hold, hx'⟩
    · exact .inl (hlast hl hn hold)

namespace Shader

/-- At every boundary between nodes, in the compilation of any entry point, an output that has slots
and feeds a node that is done also feeds one that is not, or it has got its slots since.  All nodes
of the graph count for this, also those that are not part of the section.  An output that feeds no
node keeps its slots; the weights of the sides of a mix get some whether they feed one or not. -/
theorem exists_unread_of_held {s : Shader} (hs : s.graph.Reached) (options : BytecodeOptions)
    (ids : AttributeIds) (e : EntryPoint) :
    let ctx := s.prepare.sectionContext options e
    ∀ later b past, ctx.boundaries options.recordTrace ids = later ++ b :: past →
      (∀ x ∈ b.state.outputSlots, ∀ n i, ctx.graph.net.inputLink? n i = some x.1 →
        n ∈ b.state.done →
          (∃ m j, ctx.graph.net.inputLink? m j = some x.1 ∧ m ∉ b.state.done) ∨
            ∃ c ∈ past, n ∈ c.state.done ∧ x ∉ c.state.outputSlots) ∧
      ∀ c ∈ past, ∀ x ∈ c.state.outputSlots, (∀ n i, ctx.graph.net.inputLink? n i ≠ some x.1) →
        ∃ slot, (x.1, slot) ∈ b.state.outputSlots := by
  intro ctx later b past hbs
  have hpaced : Paced ctx _ _ := paced_boundaries options.recordTrace ids
  refine ⟨fun x hx n i hl hn => ?_, fun c hc => (hbs ▸ hpaced).retains hc⟩
  have hlast := hpaced.first
  rw [hbs, List.getLast?_append_cons] at hlast
  refine exists_unread (sound_prepare hs).valid
    (List.IsChain.right_of_append (hbs ▸ hpaced.clears)) (fun c hc => ?_) hx hl hn
  cases hlast.symm.trans hc
  rfl

/-- The normal does not give back the displacement that it is derived from, since that is linked to
its terminal as well. -/
theorem bumped_held :
    let ctx := bumped.prepare.sectionContext ⟨false, true⟩ .bump
    bumped.graph.Reached ∧ ∃ later b past x, ctx.boundaries true .empty = later ++ b :: past ∧
      x ∈ b.state.outputSlots ∧ 3 ∈ b.state.done ∧ b.state.phase = .finished ∧
        ((∃ m j, ctx.graph.net.inputLink? m j = some x.1 ∧ m ∉ b.state.done) ∨
          ∃ c ∈ past, 3 ∈ c.state.done ∧ x ∉ c.state.outputSlots) := by
  intro ctx
  obtain ⟨b, hb, x, hx, hd, hphase, hl⟩ : ∃ b ∈ ctx.boundaries true .empty,
      ∃ x ∈ b.state.outputSlots, 3 ∈ b.state.done ∧ b.state.phase = .finished ∧
        ctx.graph.net.inputLink? 3 0 = some x.1 := by
    decide +kernel
  obtain ⟨later, past, hbs⟩ := List.append_of_mem hb
  exact ⟨bumped_drawn.reached, later, b, past, x, hbs, hx, hd, hphase, (exists_unread_of_held
    bumped_drawn.reached ⟨false, true⟩ .empty .bump later b past hbs).1 x hx 3 0 hl hd⟩

end Shader

end Shading
