import Shading.Proofs.Emission

/-!
# Between two nodes

A section is settled when no node is being emitted: no constant is loaded, every output in the tables
belongs to a node that is done, and every output of such a node that is still to be read is in the
tables.  Emitting a node leads from one settled section to the next (`ensures_generateNode`), and so
does a jump of a mix.  When a jump gets its target, only its
distance changes, so everything that is known of the lines stays.
-/

namespace Shading

open Emit SectionContext List Network SlotTable OrderedSet

variable {n : NodeId} {o : Opcode} {slot : Nat} {d : Int32} {P : SectionState → Prop}
  {t : SlotTable}

/-- The outputs of the done nodes that other nodes are still to read. -/
def SectionContext.wanted (ctx : SectionContext) (done : NodeSet) : Set (NodeId × Nat) :=
  { a | a.1 ∈ done ∧ ∃ m i, m ∉ done ∧ ctx.link? m i = some a ∧ ctx.inputSize (m, i) ≠ 0 }

/-- The emission of a node that comes next. -/
abbrev nextJob (ctx : SectionContext) (useful : NodeId → Prop) (G : Outline) (s : SectionState)
    (id : NodeId) : Job := ⟨ctx, useful, G, id, s.done, s.closureDone, ctx.wanted s.done⟩

/-- No node is being emitted. -/
structure Settled (ctx : SectionContext) (useful : NodeId → Prop)
    (T : List (Written × SlotRange)) (G : Outline) (s : SectionState) : Prop where
  text : G.Text ctx useful s.code
  slots : ∀ id, Slots (nextJob ctx useful G s id) G T [] [] s
  unloaded : ∀ e ∈ s.inputSlots, ctx.isLoaded e = false
  held : ∀ a ∈ ctx.wanted s.done, ∃ slot, (a, slot) ∈ s.outputSlots

variable {j : Job} {weight : Nat} {T : List (Written × SlotRange)} {A : List Nat}
  {R : List (Operand × SlotRange)} {W : List (Nat × SlotRange)} {c : List Effect} {s s' : SectionState}
  {ctx : SectionContext} {useful : NodeId → Prop} {G : Outline}

lemma Settled.mid (h : Settled ctx useful T G s) (hw : s.mixWeight = weight) (id : NodeId) :
    Mid (nextJob ctx useful G s id) weight T [] [] [] [] s :=
  ⟨⟨G, ⟨[], (Outline.grow_nil G).symm, by simp, rfl⟩, h.text, h.slots id, by simp⟩, hw, rfl, rfl,
    h.held, by simp⟩

/-- Without loaded constants it does not matter which node was emitted last. -/
lemma Slots.settle {j' : Job} (hs : Slots j G T A [] s) (hctx : j'.ctx = j.ctx)
    (hu : j'.useful = j.useful) (hl : ∀ e ∈ s.inputSlots, j.ctx.isLoaded e = false)
    (hd : ∀ n, n ∈ j.done ∨ n = j.id ∧ A ≠ [] → n ∈ j'.done) : Slots j' G T [] [] s := by
  obtain ⟨ctx, useful, base', id', done', closed', wanted'⟩ := j'
  subst hctx hu
  refine ⟨fun e he _ => hs.outputs e he (by simp), fun e he => ?_, hs.unique, fun e he hload => ?_,
    hs.others, by simp, hs.counts, fun l hl t r htr => ?_⟩
  · obtain ⟨hpos, hin, hn⟩ := hs.sizes e he
    refine ⟨hpos, hin, .inl (hd _ (hn.imp_right fun hn => ⟨hn.1, fun e => ?_⟩))⟩
    rw [e] at hn
    exact not_mem_nil hn.2
  · rw [hl e he] at hload
    cases hload
  · refine .inl (hd _ ((hs.written l hl t r htr).imp_right fun hn => ⟨hn.1, fun e => ?_⟩))
    rw [e] at hn
    exact not_mem_nil hn.2.1

lemma Mid.settle (h : Mid j weight T A R [] c s) (hl : ∀ e ∈ s.inputSlots, j.ctx.isLoaded e = false)
    (hd : ∀ n ∈ s.done, n ∈ s'.done) (hA : A = [] ∨ j.id ∈ s'.done)
    (hw : j.ctx.wanted s'.done ⊆ j.wanted) (hcode : s'.code = s.code)
    (ho : s'.outputSlots = s.outputSlots) (hi : s'.inputSlots = s.inputSlots)
    (hc : s'.stack = s.stack) : ∃ G, Grown j c G ∧ Settled j.ctx j.useful T G s' := by
  obtain ⟨G, hG, ht, hs, _⟩ := h.lines
  refine ⟨G, hG, hcode ▸ ht, fun id => ?_, hi ▸ hl, fun a ha => ho ▸ h.holds.wanted a (hw ha)⟩
  refine Slots.settle (hs.congr ho hi fun k => by rw [hc]) rfl rfl (hi ▸ hl) ?_
  rintro n (hn | ⟨rfl, hne⟩)
  · exact hd n (h.done ▸ hn)
  · exact hA.resolve_left hne

/-! ## Giving slots back -/

/-- An output that feeds the node has lost its slots, and nothing else has changed but inputs that it
feeds.  All of them belong to the node or to nodes that are done. -/
def Cleared (ctx : SectionContext) (n : NodeId) (s s' : SectionState) : Prop :=
  ∃ source slot inputSlots stack, (source, slot) ∈ s.outputSlots ∧
    (∃ i, ctx.graph.net.inputLink? n i = some source) ∧
    (∀ m i, ctx.graph.net.inputLink? m i = some source → m = n ∨ m ∈ s.done) ∧
    inputSlots.Sublist s.inputSlots ∧
    (∀ k < Stack.size, Stack.count stack k =
      if Stack.covers slot (ctx.outputSize source) k then s.stack.count k - 1
      else s.stack.count k) ∧
    s' = { s with stack, inputSlots, outputSlots := s.outputSlots.erase source }

lemma ensures_clearUser (hP : ∀ s s', P s → Cleared ctx n s s' → P s') (i : Nat) :
    Ensures P (ctx.clearUser n i) fun _ => P := by
  unfold clearUser
  dsimp only
  cases hl : ctx.net.inputLink? n i with
  | none => exact .pure fun s hs => hs
  | some source =>
    refine .get_bind fun s hs => ?_
    cases hget : s.outputSlots.get? source with
    | none => exact .pure (by rintro _ rfl; exact hs)
    | some slot =>
      refine .ite (fun hall => ?_) fun _ => .pure (by rintro _ rfl; exact hs)
      have hreaders : ∀ m i, ctx.net.inputLink? m i = some source → m = n ∨ m ∈ s.done := by
        intro m i hm
        have hmem := mem_outputLinks.2 (feeds_of_inputLink? hm)
        simpa [OrderedSet.contains_iff] using all_eq_true.1 hall _ hmem
      refine .of_eq ?_
      rintro t rfl
      exact ⟨_, _, rfl, hP _ _ hs ⟨source, slot, _, _, mem_of_get? hget, ⟨i, hl⟩, hreaders,
        foldl_erase_sublist _, fun k hk => Stack.count_release hk, rfl⟩⟩

lemma ensures_clearUsers
    (hP : ∀ s s', P s → Cleared ctx n s s' → P s') : Ensures P (ctx.clearUsers n) fun _ => P := by
  unfold clearUsers
  split
  · exact .pure fun s hs => hs
  · exact Triple.forM_rest (I := fun _ => P) (fun i _ => ensures_clearUser hP i) _

lemma SlotTable.exists_mem_erase {a b : NodeId × Nat} (h : ∃ slot, (a, slot) ∈ t)
    (hne : a ≠ b) : ∃ slot, (a, slot) ∈ t.erase b := by
  obtain ⟨slot, hmem⟩ := h
  exact ⟨slot, mem_erase.2 ⟨hmem, hne⟩⟩

/-- A cleared output is not one that another node is still to read. -/
lemma Mid.clear (h : Mid j weight T A [] [] c s) (hv : j.ctx.net.Valid)
    (hw : j.wanted = j.ctx.wanted (j.done.insert j.id)) (hc : Cleared j.ctx j.id s s') :
    Mid j weight T A [] [] c s' := by
  obtain ⟨source, slot, inputSlots, stack, hmem, ⟨i₀, hl₀⟩, hreaders, hi, hcount, rfl⟩ := hc
  obtain ⟨G, hG, htext, hslots, _⟩ := h.lines
  refine ⟨⟨G, hG, htext, hslots.clearOutput hmem rfl hi hcount, by simp⟩, h.weight, h.done, h.closed,
    fun a ha => ?_, fun o ho hl => ?_⟩
  · refine exists_mem_erase (h.holds.wanted a ha) ?_
    rintro rfl
    rw [hw] at ha
    obtain ⟨_, m, i, hm, hl, _⟩ := ha
    rw [OrderedSet.mem_insert, ← h.done] at hm
    exact hm (hreaders m i (inputLink?_of_link? hl)).symm
  · refine exists_mem_erase (h.holds.asked o ho hl) ?_
    rintro rfl
    obtain ⟨rank, hv⟩ := hv
    exact absurd (hv.ranked (feeds_of_inputLink? hl₀)) (lt_irrefl _)

lemma Settled.clear (h : Settled ctx useful T G s) (hn : n ∈ s.done)
    (hc : Cleared ctx n s s') : Settled ctx useful T G s' := by
  obtain ⟨source, slot, inputSlots, stack, hmem, _, hreaders, hi, hcount, rfl⟩ := hc
  refine ⟨h.text, fun id => (h.slots id).clearOutput hmem rfl hi hcount,
    fun e he => h.unloaded e (hi.subset he), fun a ha => ?_⟩
  refine exists_mem_erase (h.held a ha) ?_
  rintro rfl
  obtain ⟨_, m, i, hm, hl, _⟩ := ha
  obtain rfl | hm' := hreaders m i (inputLink?_of_link? hl)
  · exact hm hn
  · exact hm hm'

/-- Inputs that are noted in the tables may be forgotten. -/
lemma Settled.forget (h : Settled ctx useful T G s) (ht : t.Sublist s.inputSlots) :
    Settled ctx useful T G { s with inputSlots := t } := by
  refine ⟨h.text, fun id => ?_, fun e he => h.unloaded e (ht.subset he), h.held⟩
  have hs := h.slots id
  refine ⟨hs.outputs, hs.sizes, hs.unique, fun e he => hs.constants e (ht.subset he), hs.others,
    hs.pending, fun k hk => (coverage_le ?_ k).trans (hs.counts k hk), hs.written⟩
  exact ((Sublist.refl _).append ((ht.filter _).map _)).append (.refl _)

/-- The constants that are loaded belong to some of the given inputs of the node. -/
def Loaded (j : Job) (inputs : List (Input × Nat)) (s : SectionState) : Prop :=
  ∀ e ∈ s.inputSlots, j.ctx.isLoaded e = true → e.1.1 = j.id ∧ ∃ x ∈ inputs, x.2 = e.1.2

lemma ensures_clearConstant {socket : Input} {i : Nat} {rest : List (Input × Nat)}
    (hi : j.ctx.net.input? j.id i = some socket) :
    Ensures (fun s => Mid j weight T A [] [] c s ∧ Loaded j ((socket, i) :: rest) s)
      (j.ctx.clearConstant j.id i socket)
      fun _ s => Mid j weight T A [] [] c s ∧ Loaded j rest s := by
  have hsize : j.ctx.inputSize (j.id, i) = socket.ty.stackSize?.getD 0 := by
    rw [inputSize, hi, Option.bind_some]
  -- An input whose constant is not loaded can be left out.
  have hskip : ∀ {s}, Loaded j ((socket, i) :: rest) s →
      (∀ e ∈ s.inputSlots, j.ctx.isLoaded e = true → e.1 ≠ (j.id, i)) → Loaded j rest s := by
    intro s hl hno e he hload
    obtain ⟨hid, x, hx, hxe⟩ := hl e he hload
    obtain rfl | hx := mem_cons.1 hx
    · exact absurd (Prod.ext hid hxe.symm) (hno e he hload)
    · exact ⟨hid, x, hx, hxe⟩
  refine .ite (fun hlink => .pure fun s hs => ⟨hs.1, hskip hs.2 ?_⟩) fun hlink => ?_
  · intro e _ hload hkey
    rw [isLoaded, hkey, Option.isNone_iff_eq_none] at hload
    rw [hload] at hlink
    cases hlink
  · have hnone : j.ctx.link? j.id i = none := by simpa using hlink
    refine .get_bind fun s hs => ?_
    cases hget : s.inputSlots.get? (j.id, i) with
    | none =>
      refine .pure ?_
      rintro _ rfl
      exact ⟨hs.1, hskip hs.2 fun e he _ => ne_of_get?_eq_none hget he⟩
    | some slot =>
      refine .of_eq ?_
      rintro t rfl
      obtain ⟨hmid, hl⟩ := hs
      obtain ⟨G, hG, htext, hslots, _⟩ := hmid.lines
      refine ⟨_, _, rfl, ⟨⟨G, hG, htext, ?_, by simp⟩, hmid.weight, hmid.done, hmid.closed,
        hmid.holds⟩, hskip ?_ ?_⟩
      · refine hslots.clearConstant (mem_of_get? hget) hnone rfl rfl fun k hk => ?_
        rw [hsize]
        exact Stack.count_release hk
      · exact fun e he => hl e (mem_erase.1 he).1
      · exact fun e he _ => (mem_erase.1 he).2

lemma ensures_clearConstants :
    Ensures (Mid j weight T A [] [] c) (j.ctx.clearConstants j.id) fun _ s =>
      Mid j weight T A [] [] c s ∧ ∀ e ∈ s.inputSlots, j.ctx.isLoaded e = false := by
  -- What is loaded is an input of the node, for it takes slots.
  have hstart : ∀ {s}, Mid j weight T A [] [] c s → ∀ e ∈ s.inputSlots,
      j.ctx.isLoaded e = true → e.1.1 = j.id ∧ ∃ socket,
        j.ctx.net.input? j.id e.1.2 = some socket := by
    intro s hs e he hload
    obtain ⟨_, _, _, hslots, _⟩ := hs.lines
    obtain ⟨hid, _, hpos, _⟩ := hslots.constants e he hload
    refine ⟨hid, ?_⟩
    rw [inputSize, hid] at hpos
    cases hi : j.ctx.net.input? j.id e.1.2 with
    | none => simp [hi] at hpos
    | some socket => exact ⟨socket, rfl⟩
  unfold clearConstants
  cases hn : j.ctx.net.node? j.id with
  | none =>
    refine .pure fun s hs => ⟨hs, fun e he => ?_⟩
    rw [Bool.eq_false_iff]
    intro hload
    obtain ⟨_, socket, hi⟩ := hstart hs e he hload
    simp [input?, hn] at hi
  | some node =>
    have hinput : ∀ i, j.ctx.net.input? j.id i = node.inputs[i]? := fun i => by
      rw [input?, hn, Option.bind_some]
    refine .pre (fun s hs => (⟨fun x hx => hx, hs, fun e he hload => ?_⟩ :
      (∀ x ∈ node.inputs.zipIdx, x ∈ node.inputs.zipIdx) ∧ Mid j weight T A [] [] c s ∧
        Loaded j node.inputs.zipIdx s)) (Triple.post (Triple.forM_rest
      (I := fun rest s => (∀ x ∈ rest, x ∈ node.inputs.zipIdx) ∧ Mid j weight T A [] [] c s ∧
        Loaded j rest s) (fun x rest => ?_) _) fun _ s h => ⟨h.2.1, fun e he => ?_⟩)
    · obtain ⟨hid, socket, hi⟩ := hstart hs e he hload
      rw [hinput] at hi
      exact ⟨hid, (socket, e.1.2), mem_zipIdx_iff_getElem?.2 hi, rfl⟩
    · refine .of_imp fun hx => ?_
      have hi : node.inputs[x.2]? = some x.1 := mem_zipIdx_iff_getElem?.1 (hx x mem_cons_self)
      exact (ensures_clearConstant (hinput x.2 ▸ hi)).post fun _ s h =>
        ⟨fun y hy => hx y (mem_cons_of_mem _ hy), h⟩
    · rw [Bool.eq_false_iff]
      intro hload
      obtain ⟨_, x, hx, _⟩ := h.2.2 e he hload
      cases hx

/-! ## Nodes -/

/-- The effects of the lines of a node: those of a closure come after one that sets its weight. -/
def closureEffects (ctx : SectionContext) (id : NodeId) : List Effect :=
  if (ctx.graph.net.kind? id).any NodeKind.isClosure then [.weight, .closure] else []

lemma NodeKind.mem_of_offersOnly {k : NodeKind} (h : k.offersOnly A = true) {o : Nat} {x : Output}
    (hx : k.outputs[o]? = some x) (hsize : x.ty.stackSize?.getD 0 ≠ 0) : o ∈ A := by
  have := all_eq_true.1 h (x, o) (mem_zipIdx_iff_getElem?.2 hx)
  simpa [hsize] using this

/-- After a node is emitted, what is wanted from then on has slots. -/
lemma Emitted.rewant (h : Emitted j weight T c s) (hj : j.Ready)
    (hw : j.ctx.wanted j.done ⊆ j.wanted) :
    ∃ A, Mid { j with wanted := j.ctx.wanted (j.done.insert j.id) } weight T A [] [] c s := by
  obtain ⟨A, R, hoffers, h⟩ := h
  obtain ⟨G, hG, ht, hs, _⟩ := h.lines
  refine ⟨A, ⟨G, hG, ht, ⟨hs.outputs, hs.sizes, hs.unique, hs.constants, hs.others, hs.pending,
    hs.counts, hs.written⟩, by simp⟩, h.weight, h.done, h.closed, fun a ha => ?_, h.holds.asked⟩
  obtain ⟨hd, m, i, hm, hl, hsize⟩ := ha
  rw [OrderedSet.mem_insert, not_or] at hm
  obtain hd | hd := mem_insert.1 hd
  · exact h.holds.wanted a (hw ⟨hd, m, i, hm.1, hl, hsize⟩)
  · -- An output of the node itself was asked for, since something reads it.
    obtain ⟨n, o⟩ := a
    cases hd
    have hf := feeds_of_inputLink? (inputLink?_of_link? hl)
    have hlinked : j.ctx.net.isOutputLinked j.id o = true := isOutputLinked_iff.2 ⟨_, hf⟩
    rw [← (source_of_link? hj.valid hl).1, outputSize_eq hj.valid] at hsize
    obtain ⟨ty, _, hty, _, _⟩ := hj.valid.joins hf
    obtain ⟨k, x, hk, hx, rfl⟩ := outputType?_eq_some_iff.1 hty
    rw [hty, Option.bind_some] at hsize
    exact h.holds.asked o (NodeKind.mem_of_offersOnly (hoffers k hk) hx hsize) hlinked

theorem ensures_generateNode (hj : j.Ready) (hwant : j.ctx.wanted j.done ⊆ j.wanted) {node : Node}
    (hn : j.ctx.net.node? j.id = some node)
    (hw : node.kind.isClosure = true → HasWeight j node weight R) :
    Ensures (Mid j weight T [] R [] []) (j.ctx.generateNode j.id) fun _ s =>
      (∃ G, Grown j (closureEffects j.ctx j.id) G ∧ Settled j.ctx j.useful T G s) ∧
        s.mixWeight = weight ∧ s.done = j.done.insert j.id ∧ s.closureDone = j.closed := by
  refine Triple.bind (Q := fun _ => Mid j weight T [] R [] []) (.modify fun s hs =>
    hs.congr rfl rfl rfl (fun _ => rfl) rfl rfl rfl) fun _ => ?_
  refine (ensures_ofGraph (Graph.require_eq_ok_iff.2 hn)).bind_eq ?_
  have heffects : closureEffects j.ctx j.id =
      if node.kind.isClosure then [.weight, .closure] else [] := by
    rw [closureEffects, kind?_of_node? hn, Option.any_some]
  rw [heffects]
  refine (ensures_emitNode hj hn hw).bind fun _ => .pre (fun s hs => hs.rewant hj hwant) ?_
  refine .exists_imp fun A => ?_
  refine (ensures_clearUsers fun _ _ h hc => h.clear hj.valid rfl hc).bind fun _ =>
    ensures_clearConstants.bind fun _ => .of_eq ?_
  rintro s ⟨hmid, hl⟩
  have hdone : s.done.insert j.id = j.done.insert j.id := by rw [hmid.done]
  refine ⟨_, _, rfl, hmid.settle hl ?_ (.inr ?_) ?_ rfl rfl rfl rfl, hmid.weight, hdone, hmid.closed⟩
  · exact fun n hn => mem_insert.2 (.inl hn)
  · exact mem_insert.2 (.inr rfl)
  · exact (congrArg j.ctx.wanted hdone).subset

/-! ## Jumps -/

/-- A line that reads an input and writes nothing. -/
lemma Settled.readLine (h : Settled ctx useful T G s) (hv : ctx.net.Valid)
    {i size : Nat} {source : NodeId × Nat} (hl : ctx.link? n i = some source)
    (hsees : useful n → source.1 ∉ G.hidden ∧ useful source.1)
    (hmem : (source, slot) ∈ s.outputSlots) (hsize : ctx.inputSize (n, i) = size) (hpos : 0 < size)
    {word : Instruction} (hline : slot ≤ Stack.size → Compiles ctx ⟨n, [word], reading i slot size, []⟩)
    {stack : Stack} (hc : ∀ k, stack.count k = s.stack.count k) :
    slot < Stack.size ∧ Settled ctx useful T (G.grow [⟨n, [word], reading i slot size, []⟩])
      { s with
        stack
        inputSlots := s.inputSlots.insert (n, i) slot
        code := s.code.push word } := by
  obtain ⟨hlt, hmem', hslots, hread⟩ := (h.slots n).readLinked hv hl hsees hmem hsize hpos
  have hunloaded : ∀ e ∈ s.inputSlots.insert (n, i) slot, ctx.isLoaded e = false := by
    intro e he
    rw [Bool.eq_false_iff]
    intro hload
    have := h.unloaded e ((hmem' e hload).1 he)
    rw [hload] at this
    cases this
  refine ⟨hlt, ?_, fun id => ?_, hunloaded, h.held⟩
  · refine h.text.push Array.toList_push (hline hlt.le) (fun x hx => ?_) (by simp)
    obtain ⟨_, rfl⟩ := mem_placed.1 hx
    exact hread.value
  · refine Slots.settle (j := nextJob ctx useful G s n) (A := []) ?_ rfl rfl hunloaded (by simp)
    exact (hslots.push (by simp) (by simp)).congr rfl rfl hc

/-- The line of a jump over one side of a mix. -/
def jumpLine (n : NodeId) (o : Opcode) (distance : Int32) (slot : Nat) : Line :=
  ⟨n, [.op o distance (slotWord slot) 0], reading 0 slot 1, []⟩

def Line.patch (l : Line) (distance : Int32) : Line :=
  { l with words := l.words.modify 0 fun i => { i with w1 := distance } }

lemma length_words_patch (l : Line) (distance : Int32) :
    (l.patch distance).words.length = l.words.length :=
  length_modify ..

lemma effect_patch (l : Line) (distance : Int32) : (l.patch distance).effect = l.effect := by
  rw [Line.effect, Line.effect, Line.patch]
  cases l.words <;> rfl

/-- The outline when a jump gets its target, the next line: what was done behind it is hidden. -/
def Outline.close (G : Outline) (a : Nat) (distance : Int32) (behind : Set NodeId) : Outline where
  lines := G.lines.modify a fun l => l.patch distance
  regions := (a, G.lines.length) :: G.regions
  hidden := G.hidden ∪ behind

section Close

variable {a : Nat} {distance : Int32} {behind : Set NodeId} {lines : List Line} {p q : Nat}
  {w : Written} {r : SlotRange}

/-- A line after a patch was there before, with the same operands. -/
lemma getElem?_patch {l : Line} (h : (lines.modify a fun l => l.patch distance)[p]? = some l) :
    ∃ l', lines[p]? = some l' ∧ l'.node = l.node ∧ l'.effect = l.effect ∧
      l'.reads = l.reads ∧ l'.writes = l.writes ∧ (p ≠ a → l' = l) := by
  rw [getElem?_modify] at h
  obtain ⟨l', hl', rfl⟩ := Option.map_eq_some_iff.1 h
  refine ⟨l', hl', ?_⟩
  split
  · rename_i e
    exact ⟨rfl, (effect_patch ..).symm, rfl, rfl, fun hne => absurd e.symm hne⟩
  · exact ⟨rfl, rfl, rfl, rfl, fun _ => rfl⟩

lemma Kept.patch (h : Kept lines w r q p) :
    Kept (lines.modify a fun l => l.patch distance) w r q p := by
  obtain ⟨l, hl, hw⟩ := h.written
  refine ⟨⟨if a = q then l.patch distance else l, ?_, ?_⟩, h.earlier, fun k l' hqk hkp hl' => ?_⟩
  · rw [getElem?_modify, hl]
    rfl
  · split <;> exact hw
  · obtain ⟨m, hm, _, _, _, hwrites, _⟩ := getElem?_patch hl'
    rw [← hwrites]
    exact h.apart k m hqk hkp hm

/-- The words of a patched line stand where they stood. -/
lemma flatMap_words_patch (ha : lines[a]? = some (jumpLine n o d slot)) :
    (lines.modify a fun l => l.patch distance).flatMap Line.words =
      (lines.flatMap Line.words).modify (position lines a) fun i => { i with w1 := distance } := by
  obtain ⟨hlt, hget⟩ := List.getElem?_eq_some_iff.1 ha
  have hsplit : lines = lines.take a ++ jumpLine n o d slot :: lines.drop (a + 1) := by
    rw [← hget, cons_getElem_drop_succ, take_append_drop]
  have hpos : position lines a = ((lines.take a).flatMap Line.words).length := by
    rw [position, length_flatMap]
  have hlen : a = (lines.take a).length := by
    rw [length_take]
    omega
  rw [hpos]
  generalize lines.take a = before at hsplit hlen
  generalize lines.drop (a + 1) = after at hsplit
  subst hlen hsplit
  rw [modify_append_cons, flatMap_append, flatMap_append, flatMap_cons, flatMap_cons]
  exact (modify_append_cons (fun i => { i with w1 := distance }) (before.flatMap Line.words)
    (.op o d (slotWord slot) 0) (after.flatMap Line.words)).symm

/-- A jump that gets its target. -/
lemma Outline.Text.close {code : Array Instruction} (h : G.Text ctx useful code)
    (ha : G.lines[a]? = some (jumpLine n o d slot))
    (hk : ctx.net.kind? n = some .mixClosure) (ho : o = .jumpIfOne ∨ o = .jumpIfZero)
    (hslot : slot ≤ Stack.size) (distance : Int32) (behind : Set NodeId) :
    (G.close a distance behind).Text ctx useful
      (code.modify (position G.lines a) fun i => { i with w1 := distance }) where
  words := by
    rw [Array.toList_modify, h.words]
    exact (flatMap_words_patch ha).symm
  compiles l hl := by
    obtain ⟨p, hp⟩ := mem_iff_getElem?.1 hl
    by_cases e : p = a
    · subst e
      rw [Outline.close, getElem?_modify, ha] at hp
      cases hp
      dsimp only
      rw [if_pos rfl]
      exact .jump distance hk ho hslot
    · obtain ⟨l', hl', _, _, _, _, heq⟩ := getElem?_patch hp
      rw [← heq e]
      exact h.compiles l' (mem_of_getElem? hl')
  reads {p l} hl x hx := by
    obtain ⟨l', hl', hnode, _, hreads, _, _⟩ := getElem?_patch hl
    rw [← hreads] at hx
    obtain ⟨q, w, hk, hprov, hu⟩ := h.reads hl' x hx
    rw [← hnode]
    refine ⟨q, w, hk.patch, hprov, fun hl r hr hrq hqr => ?_⟩
    obtain rfl | hr := mem_cons.1 hr
    · exact (List.getElem?_eq_some_iff.1 hl').1
    · exact hu hl r hr hrq hqr
  once {p q l m t r r'} hl hm ht ht' := by
    obtain ⟨l', hl', _, _, _, hlw, _⟩ := getElem?_patch hl
    obtain ⟨m', hm', _, _, _, hmw, _⟩ := getElem?_patch hm
    exact h.once hl' hm' (hlw ▸ ht) (hmw ▸ ht')
  bounded r hr := by
    rw [Outline.close, length_modify]
    obtain rfl | hr := mem_cons.1 hr
    · exact le_rfl
    · exact h.bounded r hr

/-- What is written before the jump, or by a node that is hidden now, is known as well as before. -/
lemma Settled.close (h : Settled ctx useful [] G s) (ha : G.lines[a]? = some (jumpLine n o d slot))
    (hk : ctx.net.kind? n = some .mixClosure) (ho : o = .jumpIfOne ∨ o = .jumpIfZero)
    (hslot : slot ≤ Stack.size) (distance : Int32) {behind : Set NodeId}
    (hb : ∀ e ∈ s.outputSlots, e.1.1 ∉ behind → ∀ q l t r, ctx.Origin e.1 t →
      G.lines[q]? = some l → (Written.output t, r) ∈ l.writes → q ≤ a) :
    Settled ctx useful [] (G.close a distance behind)
      { s with code := s.code.modify (position G.lines a) fun i => { i with w1 := distance } } := by
  refine ⟨h.text.close ha hk ho hslot distance behind, fun id => ?_, h.unloaded, h.held⟩
  have hs := h.slots id
  refine ⟨fun e he _ => ?_, hs.sizes, hs.unique, fun e he hload => ?_, by simp, by simp, hs.counts,
    fun l hl t r htr => ?_⟩
  · obtain ⟨q, t, horigin, hkept, hx⟩ := hs.outputs e he (by simp)
    refine ⟨q, t, horigin, ?_, fun hhidden hu r hr hlt hlt' => ?_⟩
    · rw [Outline.close, length_modify]
      exact hkept.patch
    rw [Outline.close, Set.mem_union, not_or] at hhidden
    obtain rfl | hr := mem_cons.1 hr
    · obtain ⟨l, hl, hw⟩ := hkept.written
      have := hb e he hhidden.2 q l t _ horigin hl hw
      omega
    · exact hx hhidden.1 hu r hr hlt hlt'
  · rw [h.unloaded e he] at hload
    cases hload
  · obtain ⟨p, hp⟩ := mem_iff_getElem?.1 hl
    obtain ⟨l', hl', _, _, _, hwrites, _⟩ := getElem?_patch hp
    exact hs.written l' (mem_of_getElem? hl') t r (hwrites ▸ htr)

end Close

end Shading
