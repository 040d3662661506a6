import Shading.Proofs.Disassembly
import Shading.Proofs.Standard

/-!
# Where results go

Eleven operations always have a result.  `Machine.destination?` is the run of slots that such an
instruction writes.  This module shows that it lies inside the stack and is never the invalid
offset.

Results go to the slots of outputs, and the construction remembers these.  A slot that was taken for
an output has room for it (`Stowed`), and the sizes that instructions write are those of the outputs
of their kinds.  Only two things are left to look at.  A bump without strength lets its output share
the slot of whatever feeds it, but writes nothing there.  A script writes a zero for every output
under the slot of the first output of the same name, and that one may have less room: a closure has
no slot at all, and a number has one where a vector takes three (`Graph.Roomy`).

Sockets of scripts may be of any number and type: that links cut off their numbers changes which
outputs are written, but not where.  So all that is asked of a graph is that its other nodes have the
sockets of their kinds (`Graph.Standard`).
-/

namespace Shading

open Emit SectionContext Shading.Graph List Machine Moves Network SlotTable

/-! ## Destinations -/

namespace Machine

/-- The instruction writes a zero, as scripts do for their outputs. -/
def IsZero (i : Instruction) (data : List Instruction) (o : Opcode) : Prop :=
  o = .valueF ∧ i.w1 = Instruction.floatWord 0 ∨ WritesZero data o

/-- Where an instruction that was read puts its result. -/
def Step.destination? (s : Step) : Option SlotRange := Machine.destination? s.word s.data s.opcode

end Machine

/-- The number of slots that a script writes for an output. -/
def Output.writtenSize (x : Output) : Nat := if x.ty.isVec3 then 3 else 1

/-- Whether a node is a script with an output that feeds something, by its name, and for which more
slots are written than the first output of that name has. -/
def Graph.overruns (g : Graph) (id : NodeId) (node : Node) : Bool :=
  node.kind.isScript && node.outputs.any fun x =>
    (node.outputIndex? x.name).any fun o => g.net.isOutputLinked id o &&
      ((node.outputs[o]?).bind fun y => y.ty.stackSize?).any fun size => size < x.writtenSize

/-- Scripts have room for the zeros that are written for them. -/
def Graph.Roomy (g : Graph) : Prop :=
  ∀ id ∈ g.net.ids, (g.net.node? id).any (g.overruns id) = false

instance (g : Graph) : Decidable g.Roomy :=
  inferInstanceAs (Decidable (∀ id ∈ g.net.ids, _ = false))

/-- An instruction with its data.  Its result, if it always has one, goes inside the stack, unless it
is a zero and a script has no room. -/
def Lands (g : Graph) (i : Instruction) (data : List Instruction) (o : Opcode) : Prop :=
  ∀ r, destination? i data o = some r → r.1 + r.2 ≤ Stack.size ∨ IsZero i data o ∧ ¬ g.Roomy

variable {g : Graph} {o : Opcode} {a b c : Int32} {data words : List Instruction} {slot size : Nat}
  {ty : SocketType} {i : Instruction} {name : String} {l : List Held}

lemma Machine.Item.op (hw : data.length + 1 = width (.op o a b c) o)
    (hd : destination? (.op o a b c) data o = none) : Item (Lands g) (.op o a b c :: data) := by
  refine ⟨o, Opcode.ofWord?_word o, hw, fun r hr => ?_⟩
  rw [hd] at hr
  cases hr

/-- An instruction that puts its result into a slot with room for it. -/
lemma Machine.Item.result (hs : slot + size ≤ Stack.size) (hw : data.length + 1 = width (.op o a b c) o)
    (hd : destination? (.op o a b c) data o = some (offset (slotWord slot), size)) :
    Item (Lands g) (.op o a b c :: data) := by
  refine ⟨o, Opcode.ofWord?_word o, hw, fun r hr => .inl ?_⟩
  obtain rfl := Option.some.inj (hd.symm.trans hr)
  rwa [offset_slotWord (by unfold Stack.size at hs; omega)]

/-- Slots that were taken for results have room for them. -/
def Spacious (l : List Held) : Prop := ∀ x, (x, true) ∈ l → x.2 = 0 ∨ x.1 + x.2 ≤ Stack.size

lemma spacious_nil : Spacious [] := fun _ h => absurd h not_mem_nil

lemma spacious_loose (r : SlotRange) : Spacious [(r, false)] := by simp [Spacious]

lemma Machine.pos_of_destination? {r : SlotRange}
    (h : destination? i data o = some r) : 0 < r.2 := by
  unfold destination? at h
  split at h <;> grind

lemma Fits.lands (h : Fits l words) (hl : Spacious l) : Item (Lands g) words := by
  cases h with
  | @op o a b c data ho hw hd hin =>
    refine ⟨o, Opcode.ofWord?_word o, hw, fun r hr => .inl ?_⟩
    have hpos := pos_of_destination? hr
    obtain ⟨x, hx, rfl⟩ := hd r hr
    have hroom := (hl x hx).resolve_left hpos.ne'
    rwa [offset_slotWord (by unfold Stack.size at hroom; omega)]

/-! ## Steps -/

/-- Whether a node is a bump that passes on its normal. -/
def SectionContext.passesOn (ctx : SectionContext) (id : NodeId) : Bool :=
  (ctx.graph.net.node? id).any fun node => node.kind.special == .bump &&
    (!ctx.isLinked id "Strength" && node.float "Strength" == 0 && ctx.isLinked id "Normal")

/-- The slots of outputs have room for them, apart from those that are passed on. -/
def Stowed (ctx : SectionContext) (s : SectionState) : Prop :=
  ∀ e ∈ s.outputSlots, ctx.passesOn e.1.1 = false →
    ∃ size, (ctx.graph.net.sourceType? e.1).bind SocketType.stackSize? = some size ∧
      (size = 0 ∨ e.2 + size ≤ Stack.size)

/-- What a step does to states in which outputs have room: they still have, and all instructions that
were appended land. -/
def Deposits (ctx : SectionContext) (s s' : SectionState) : Prop :=
  Stowed ctx s → Stowed ctx s' ∧ Extends (Lands ctx.graph) s s'

variable {ctx : SectionContext} {id : NodeId} {s s' : SectionState} {α β : Type} {m : Emit α}

instance : IsPreorder SectionState (Deposits ctx) where
  refl _ h := ⟨h, .of_eq rfl⟩
  trans s t u h h' hs := by
    obtain ⟨ht, hext⟩ := h hs
    obtain ⟨hu, hext'⟩ := h' ht
    exact ⟨hu, hext.trans hext'⟩

lemma Deposits.of_subset (hcode : s'.code = s.code) (ho : s'.outputSlots ⊆ s.outputSlots) :
    Deposits ctx s s' :=
  fun hs => ⟨fun e he => hs e (ho he), .of_eq hcode⟩

lemma Deposits.of_eq (hcode : s'.code = s.code) (ho : s'.outputSlots = s.outputSlots) :
    Deposits ctx s s' :=
  .of_subset hcode (ho ▸ Subset.refl _)

lemma Moves.bind_of {Q : α → Prop} {f : α → Emit β} (hm : Moves (Deposits ctx) m)
    (hQ : ∀ {s a s'}, m s = .ok a s' → Stowed ctx s → Q a)
    (hf : ∀ a, Q a → Moves (Deposits ctx) (f a)) : Moves (Deposits ctx) (m >>= f) := by
  intro s b s' h hs
  obtain ⟨a, t, hfirst, hrest⟩ := bind_eq_ok.1 h
  exact trans_of (Deposits ctx) (hm hfirst) (hf a (hQ hfirst hs) hrest) hs

/-- A step that appends an instruction that lands. -/
lemma Emit.Appends.deposits {m : Emit PUnit} {form : List Instruction → Prop} (h : Appends m form)
    (hform : ∀ words, form words → Item (Lands ctx.graph) words) : Moves (Deposits ctx) m := by
  intro s u s' hm hs
  obtain ⟨words, code, ids, hwords, hcode, heq⟩ := h s
  rw [heq] at hm
  cases hm
  exact ⟨hs, .item hcode (hform words hwords)⟩

lemma deposits_op (h : Item (Lands ctx.graph) [.op o a b c]) : Moves (Deposits ctx) (op o a b c) :=
  (Appends.push _).deposits fun _ hw => hw ▸ h

lemma deposits_data (h : Item (Lands ctx.graph) [.op o a b c, i]) :
    Moves (Deposits ctx) (op o a b c >>= fun _ => push i) :=
  ((Appends.push _).bind (.push _)).deposits fun _ hw => hw ▸ h

/-! ### Slots -/

lemma room_of_claim (h : claim size s = .ok slot s') : size = 0 ∨ slot + size ≤ Stack.size := by
  obtain ⟨stack, hc, _⟩ := claim_eq_ok h
  exact (Nat.eq_zero_or_pos size).imp_right fun hpos => (Stack.claim_spec hc hpos).1

lemma deposits_claim (size : Nat) : Moves (Deposits ctx) (claim size) := by
  intro s slot s' h
  obtain ⟨stack, _, rfl⟩ := claim_eq_ok h
  exact .of_eq rfl rfl

lemma deposits_read (offset size : Nat) : Moves (Deposits ctx) (read offset size) := by
  intro s u s' h
  obtain ⟨stack, _, rfl⟩ := read_eq_ok h
  exact .of_eq rfl rfl

lemma deposits_release (offset size : Nat) : Moves (Deposits ctx) (release offset size) :=
  .modify fun _ => .of_eq rfl rfl

lemma deposits_setPhase (phase : Phase) : Moves (Deposits ctx) (setPhase phase) :=
  .modify fun _ => .of_eq rfl rfl

lemma deposits_setInputSlot (i slot : Nat) : Moves (Deposits ctx) (setInputSlot id i slot) :=
  .modify fun _ => .of_eq rfl rfl

/-- Remembering a slot that has room for its output, or that is passed on. -/
lemma deposits_setOutputSlot {i : Nat} (h : ctx.passesOn id = false →
    ∃ size, (ctx.net.sourceType? (id, i)).bind SocketType.stackSize? = some size ∧
      (size = 0 ∨ slot + size ≤ Stack.size)) :
    Moves (Deposits ctx) (setOutputSlot id i slot) := by
  refine .modify fun s hs => ⟨fun e he hp => ?_, .of_eq rfl⟩
  obtain rfl | ⟨he, _⟩ := mem_insert.1 he
  · exact h hp
  · exact hs e he hp

/-- The type of an output that was found by name. -/
lemma sourceType?_of_requireOutput {i : Nat} (h : ctx.graph.requireOutput id name = .ok (i, ty)) :
    ctx.net.sourceType? (id, i) = some ty := by
  obtain ⟨node, hn, _, hty⟩ := requireOutput_eq_ok h
  rwa [sourceType?, form?_of_node? hn]

lemma slotSize_eq_ok {socket : String}
    (h : slotSize id socket ty s = .ok size s') : ty.stackSize? = some size ∧ s' = s := by
  cases hty : ty.stackSize? with
  | some n =>
    simp only [slotSize, hty] at h
    cases h
    exact ⟨rfl, rfl⟩
  | none =>
    simp only [slotSize, hty] at h
    cases h

lemma deposits_assignOutput (name : String) : Moves (Deposits ctx) (ctx.assignOutput id name) := by
  refine .ofGraph_bind fun r hr => .get_bind fun t => ?_
  split
  · exact .pure _
  · refine bind_of (composes.slotSize ..) (fun h _ => (slotSize_eq_ok h).1)
      fun size hsize => ?_
    refine bind_of (deposits_claim size) (fun h _ => room_of_claim h) fun slot hslot => ?_
    refine (deposits_setOutputSlot fun _ => ⟨size, ?_, hslot⟩).bind fun _ => .pure _
    rw [sourceType?_of_requireOutput hr, Option.bind_some, hsize]

/-- The slot of an output has room for it. -/
lemma assignOutput_eq_ok (hp : ctx.passesOn id = false)
    (h : ctx.assignOutput id name s = .ok slot s') (hs : Stowed ctx s) :
    ∃ i ty size, ctx.graph.requireOutput id name = .ok (i, ty) ∧ ty.stackSize? = some size ∧
      (size = 0 ∨ slot + size ≤ Stack.size) := by
  obtain ⟨⟨i, ty⟩, t, hask, hrest⟩ := bind_eq_ok.1 h
  obtain ⟨hr, rfl⟩ := ofGraph_eq_ok.1 hask
  have hty := sourceType?_of_requireOutput hr
  obtain ⟨u, _, hget, hfind⟩ := bind_eq_ok.1 hrest
  cases hget
  cases hheld : get? t.outputSlots (id, i) with
  | some held =>
    simp only [hheld] at hfind
    cases hfind
    obtain ⟨size, hsize, hroom⟩ := hs _ (mem_of_get? hheld) hp
    rw [hty, Option.bind_some] at hsize
    exact ⟨i, ty, size, hr, hsize, hroom⟩
  | none =>
    simp only [hheld] at hfind
    obtain ⟨size, _, hsize, hnew⟩ := bind_eq_ok.1 hfind
    obtain ⟨claimed, _, hclaim, hend⟩ := bind_eq_ok.1 hnew
    cases hend
    exact ⟨i, ty, size, hr, (slotSize_eq_ok hsize).1, room_of_claim hclaim⟩

lemma deposits_assignOutputIfLinked (name : String) :
    Moves (Deposits ctx) (ctx.assignOutputIfLinked id name) :=
  .ite (fun _ => deposits_assignOutput name) fun _ => .pure _

/-- Constants are loaded into slots that have room for them. -/
lemma deposits_loadConstant {socket : Input} (hsize : socket.ty.stackSize? = some size)
    (hs : slot + size ≤ Stack.size) (hpos : 0 < size) :
    Moves (Deposits ctx) (loadConstant slot socket.value socket.ty) := by
  refine appends_loadConstant.deposits ?_
  rintro _ rfl
  obtain ⟨_, rfl, hw⟩ | ⟨_, rfl, hw⟩ := constantWords_cases slot hsize hpos <;>
    exact hw ▸ .result hs rfl rfl

lemma deposits_assignInputAt (i : Nat) : Moves (Deposits ctx) (ctx.assignInputAt id i) := by
  unfold assignInputAt
  split
  · exact .throw _
  refine bind_of (composes.slotSize ..) (fun h _ => (slotSize_eq_ok h).1)
    fun size hsize => .ite (fun _ => .pure _) fun hpos => ?_
  split
  · refine bind (.get_bind fun t => ?_) fun _ => (deposits_setInputSlot ..).bind fun _ =>
      .pure _
    split
    · exact .throw _
    · exact (deposits_read ..).bind fun _ => .pure _
  refine .get_bind fun t => ?_
  split
  · exact .pure _
  refine bind_of (deposits_claim size) (fun h _ => room_of_claim h) fun slot hslot => ?_
  exact (deposits_loadConstant hsize (hslot.resolve_left hpos) (Nat.pos_of_ne_zero hpos)).bind fun _ =>
    (deposits_setInputSlot ..).bind fun _ => .pure _

lemma deposits_closureWeight : Moves (Deposits ctx) closureWeight :=
  .get_bind fun _ => .ite (fun _ => (deposits_read ..).bind fun _ => .pure _) fun _ => .pure _

lemma closing_deposits : Closing ctx id fun _ m => Moves (Deposits ctx) m where
  toComposes := composes
  input := deposits_assignInputAt
  weight := deposits_closureWeight
  silent {o} _ _ _ ho := by cases o <;> first | exact deposits_op (.op rfl rfl) | cases ho
  bsdf _ _ _ _ := deposits_data (.op rfl rfl)

/-- A bump that passes on its normal writes nothing. -/
lemma deposits_shareOutput (hp : ctx.passesOn id = true) (input output : String) :
    Moves (Deposits ctx) (ctx.shareOutput id input output) := by
  refine .ofGraph_bind fun r _ => .get_bind fun t => .ite (fun _ => .pure _) fun _ => ?_
  refine .ofGraph_bind fun x _ => .get_bind fun u => ?_
  split
  · exact .throw _
  · refine bind (composes.slotSize ..) fun _ => (deposits_read ..).bind fun _ => ?_
    refine bind (.modify fun _ => .of_eq rfl rfl) fun _ => deposits_setOutputSlot fun h => ?_
    rw [hp] at h
    cases h

/-! ## Nodes -/

/-- A step with what it takes slots for: instructions land, and the slots have room, if those that
were held before have. -/
def Stows (ctx : SectionContext) (l : List Held) (m : Emit α) (Q : α → List Held) : Prop :=
  ∀ s a s', m s = .ok a s' → Stowed ctx s → Spacious l → Deposits ctx s s' ∧ Spacious (Q a)

lemma Moves.stows (h : Moves (Deposits ctx) m) {Q : α → List Held}
    (hQ : ∀ a, Spacious (Q a)) : Stows ctx l m Q :=
  fun _ _ _ hrun _ _ => ⟨h hrun, hQ _⟩

/-- A node that has the sockets of its kind and does not pass on its normal. -/
structure SectionContext.Owns (ctx : SectionContext) (id : NodeId) (k : NodeKind) : Prop where
  form : ctx.graph.net.form? id = some (Node.ofKind k).form
  keeps : ctx.passesOn id = false

lemma SectionContext.Owns.output {k : NodeKind} (h : ctx.Owns id k)
    (hsize : k.outputIs name size = true) (hok : ctx.assignOutput id name s = .ok slot s')
    (hs : Stowed ctx s) : size = 0 ∨ slot + size ≤ Stack.size := by
  obtain ⟨i, ty, n, hr, hn, hroom⟩ := assignOutput_eq_ok h.keeps hok hs
  have hself := outputSize_of_requireOutput hr hn
  have hout := outputSize_of_form h.form hsize hr
  omega

lemma SectionContext.Owns.fitting {k : NodeKind} (h : ctx.Owns id k) :
    Fitting ctx id k fun _ l m Q => Stows ctx l m Q where
  pure hQ _ _ _ hrun _ hl := by
    cases hrun
    exact ⟨refl_of _ _, fun x hx => hl x (hQ hx)⟩
  bind hm hf s b u hrun hs hl := by
    obtain ⟨a, t, hfirst, hrest⟩ := bind_eq_ok.1 hrun
    obtain ⟨hd, hQ⟩ := hm s a t hfirst hs hl
    obtain ⟨hd', hR⟩ := hf a t b u hrest (hd hs).1 fun x hx =>
      (mem_append.1 hx).elim (hQ x) (hl x)
    exact ⟨trans_of _ hd hd', hR⟩
  weaken hm hsub _ _ _ hrun hs hl := hm _ _ _ hrun hs fun x hx => hl x (hsub hx)
  nowhere := stows (.pure _) fun _ => spacious_loose _
  input _ _ := (closing_deposits.assignInput _).stows fun _ => spacious_loose _
  output size hsize _ _ _ hrun hs _ := by
    refine ⟨deposits_assignOutput _ hrun, fun x hx => ?_⟩
    cases mem_singleton.1 hx
    exact h.output hsize hrun hs
  outputIfLinked _ _ := (deposits_assignOutputIfLinked _).stows fun _ => spacious_loose _
  claim _ _ _ hrun _ _ := by
    refine ⟨deposits_claim _ hrun, fun x hx => ?_⟩
    cases mem_singleton.1 hx
    exact room_of_claim hrun
  release _ _ := (deposits_release ..).stows fun _ => spacious_nil
  weight := deposits_closureWeight.stows fun _ => spacious_loose _
  word _ _ _ _ hrun _ _ := by
    cases hrun
    exact ⟨.of_eq rfl rfl, spacious_nil⟩
  pack hf _ _ _ hrun hs hl := by
    unfold pack at hrun
    split at hrun
    · exact hf _ (byte_pack? ‹_›) _ _ _ hrun hs hl
    · cases hrun
  emit hm hform _ _ _ hrun _ hl :=
    ⟨hm.deposits (fun words hw => (hform words hw).lands hl) hrun, spacious_nil⟩

/-! ### Scripts -/

variable {node : Node}

/-- A script with room has as many slots for an output as it writes. -/
lemma writtenSize_le (hg : ctx.graph.Roomy) (hn : ctx.net.node? id = some node)
    (hk : node.kind.isScript = true) {x : Output} (hx : x ∈ node.outputs)
    (hl : ctx.isOutputLinked id x.name = true) {i : Nat}
    (hr : ctx.graph.requireOutput id x.name = .ok (i, ty)) (hsize : ty.stackSize? = some size) :
    x.writtenSize ≤ size := by
  obtain ⟨_, hn', hidx, hty⟩ := requireOutput_eq_ok hr
  obtain rfl := Option.some.inj (hn.symm.trans hn')
  obtain ⟨y, hy, rfl⟩ := Option.map_eq_some_iff.1 hty
  have hfeeds : ctx.net.isOutputLinked id i = true := by
    simpa [SectionContext.isOutputLinked, hn, hidx] using hl
  by_contra hlt
  have hover : ctx.graph.overruns id node = true := by
    simp only [overruns, hk, Bool.true_and, any_eq_true]
    refine ⟨x, hx, ?_⟩
    simp only [hidx, Option.any_some, hfeeds, hy, Option.bind_some, hsize, Bool.true_and,
      decide_eq_true_eq]
    omega
  have := hg id (mem_ids.2 ⟨node, hn⟩)
  rw [hn, Option.any_some, hover] at this
  cases this

lemma deposits_emitScript (hn : ctx.net.node? id = some node)
    (hk : node.kind.isScript = true) (hp : ctx.passesOn id = false) :
    Moves (Deposits ctx) (ctx.emitScript id node) := by
  refine bind (.forIn (fun x hx _ => ?_) _) fun _ => .pure _
  refine .ite (fun hl => ?_) fun _ => .pure _
  have hroom : ∀ {s slot s'}, ctx.assignOutput id x.name s = .ok slot s' → Stowed ctx s →
      slot + x.writtenSize ≤ Stack.size ∨ ¬ ctx.graph.Roomy := by
    intro s slot s' hok hs
    obtain ⟨i, ty, size, hr, hsize, hroom⟩ := assignOutput_eq_ok hp hok hs
    by_cases hg : ctx.graph.Roomy
    · have hle := writtenSize_le hg hn hk hx hl hr hsize
      have hpos : 0 < x.writtenSize := by
        unfold Output.writtenSize
        split <;> decide
      exact .inl (by omega)
    · exact .inr hg
  refine bind_of (deposits_assignOutput _) hroom fun slot hslot => ?_
  -- An instruction that writes a zero lands whether there is room or not.
  have hlands : ∀ {o a b c data}, data.length + 1 = width (.op o a b c) o →
      destination? (.op o a b c) data o =
        some (offset (slotWord slot), x.writtenSize) →
      IsZero (.op o a b c) data o → Item (Lands ctx.graph) (.op o a b c :: data) := by
    intro o a b c data hw hd hzero
    obtain hin | hfull := hslot
    · exact .result hin hw hd
    · exact ⟨o, Opcode.ofWord?_word o, hw, fun r _ => .inr ⟨hzero, hfull⟩⟩
  refine .ite (fun hvec => ?_) fun hvec => bind (deposits_op ?_) fun _ => .pure _
  · rw [← bind_assoc]
    refine bind (deposits_data ?_) fun _ => .pure _
    exact hlands rfl (by rw [Output.writtenSize, if_pos hvec]; rfl) (.inr ⟨rfl, rfl⟩)
  · exact hlands rfl (by rw [Output.writtenSize, if_neg hvec]; rfl) (.inl ⟨rfl, rfl⟩)

/-! ### All kinds -/

lemma passesOn_eq_false (hn : ctx.net.node? id = some node)
    (hb : node.kind.special ≠ .bump) : ctx.passesOn id = false := by
  simp [passesOn, hn, hb]

/-- The results of a node land. -/
theorem deposits_emitNode (hnet : ctx.net.Standard)
    (hn : ctx.net.node? id = some node) :
    Moves (Deposits ctx) (ctx.emitNode id node) := by
  have hstows : Stows ctx [] (ctx.emitNode id node) fun _ => [] := by
    refine Fitting.emitNode (P := fun _ l m Q => Stows ctx l m Q) ?_ ?_ fun hk =>
      (deposits_emitScript hn (by rw [hk]; rfl) (passesOn_eq_false hn ?_)).stows fun _ => spacious_nil
    · rintro _ rfl hs
      obtain ⟨hscript, hbump⟩ := Bool.or_eq_false_iff.1 hs
      exact Owns.fitting ⟨hnet.form?_eq hn rfl hscript, passesOn_eq_false hn (by simpa using hbump)⟩
    · intro invert space hk
      unfold emitBump
      split
      · rename_i hpass
        refine (deposits_shareOutput ?_ _ _).stows fun _ => spacious_nil
        rw [passesOn, hn, Option.any_some, hk, hpass]
        rfl
      · rename_i hpass
        refine (Owns.fitting ⟨hnet.form?_eq hn hk rfl, ?_⟩).emitBump
        rw [passesOn, hn, Option.any_some, Bool.eq_false_of_not_eq_true hpass, Bool.and_false]
    · rw [hk]
      exact SpecialType.noConfusion
  intro s a s' hrun hs
  exact (hstows s a s' hrun hs spacious_nil).1 hs

/-! ## Sections -/

lemma deposits_assignWeight : Moves (Deposits ctx) (ctx.assignWeight id node) := by
  unfold assignWeight
  split
  · exact .pure _
  exact .ite (fun _ => (deposits_assignInputAt _).bind fun _ => .modify fun _ => .of_eq rfl rfl)
    fun _ => .pure _

lemma building_deposits (hnet : ctx.net.Standard) :
    Building ctx fun _ m => Moves (Deposits ctx) m where
  toComposes := composes
  get_bind _ := .get_bind
  setPhase := deposits_setPhase
  release := deposits_release
  forgetOutput _ _ := .modify fun _ => .of_subset rfl erase_sublist.subset
  forgetInput _ := .modify fun _ => .of_eq rfl rfl
  markDone _ := .modify fun _ => .of_eq rfl rfl
  markClosure _ := .modify fun _ => .of_eq rfl rfl
  modifyFlags _ := .modify fun _ => .of_eq rfl rfl
  request _ := .modify fun _ => .of_eq rfl rfl
  emitNode hnode := deposits_emitNode hnet (require_eq_ok_iff.1 hnode)
  assignWeight _ _ := deposits_assignWeight
  dropWeight := .modify fun _ => .of_eq rfl rfl

/-- A jump whose target is filled in after what stands behind it. -/
lemma deposits_jump {o : Opcode} (ho : o = .jumpIfOne ∨ o = .jumpIfZero) {w : Int32} {u : Unit}
    {t : SectionState} (h : Deposits ctx { s with code := s.code.push (.op o 0 w 0) } t)
    (hpatch : patchJump s.code.size t = .ok u s') : Deposits ctx s s' := by
  intro hs
  obtain ⟨ht, hext⟩ := h hs
  refine ⟨?_, hext.jump (fun a => ?_) hpatch⟩
  · cases hpatch
    exact ht
  · obtain rfl | rfl := ho <;> exact .op rfl rfl

lemma walking_deposits (hnet : ctx.net.Standard) :
    Walking ctx fun _ m => Moves (Deposits ctx) m :=
  (building_deposits hnet).walking fun ho hm =>
    (deposits_assignInputAt _).bind fun _ => hm.jump (deposits_jump ho)

/-- Everything that a section writes lands. -/
theorem deposits_compile (hnet : ctx.net.Standard) : Moves (Deposits ctx) ctx.compile := by
  have henter : Moves (Deposits ctx) ctx.enterBump :=
    .ite (fun _ => (deposits_claim _).bind fun _ => (deposits_op (.op rfl rfl)).bind fun _ => .pure _)
      fun _ => .pure _
  have hleave : ∀ state, Moves (Deposits ctx) (leaveBump state) := by
    intro state
    cases state with
    | none => exact .pure _
    | some slot => exact (deposits_op (.op rfl rfl)).bind fun _ => deposits_release ..
  have h := building_deposits hnet
  exact h.compile h.setPhase closing_deposits.emitOutput hleave (deposits_op (.op rfl rfl)) henter
    h.modifyFlags fun _ _ => (walking_deposits hnet).visit ..

/-! ## Programs -/

namespace Shader

/-- Whatever a new graph is asked for, in whatever order, with scripts of any sockets among its
nodes: every section can be read, and every instruction that always has a result puts it into slots
inside the stack.  The exception are zeros, in graphs with a script that has no room for them. -/
theorem destinations_inside {cs : List Graph.Change} (hcs : ∀ c ∈ cs, c.IsStandard) {s : Shader}
    (hs : s.graph = Graph.new.changes cs) (options : BytecodeOptions) (ids : AttributeIds)
    {e : EntryPoint} :
    let program := (s.compileBytecode options ids).1.program
    (program.entries.get? e).isSome = true →
      ∃ steps, Machine.decode? (program.code e) = some steps ∧
        ∀ x ∈ steps, ∀ r, x.destination? = some r →
          r.1 ≠ Stack.invalid ∧ r.1 + r.2 ≤ Stack.size ∨
            Machine.IsZero x.word x.data x.opcode ∧ ¬ s.prepare.graph.Roomy := by
  intro program hsome
  have hgraph : s.graph.Standard := by
    rw [hs]
    exact Graph.changes_induction Graph.standard_new fun g c hc hg => hg.change (hcs c hc)
  have hnet : s.prepare.graph.net.Standard :=
    (hgraph.change (c := .finalize s.finalizeOptions) trivial).net
  obtain ⟨before, t, _, hrun, hcode', _⟩ := exists_compile_eq_ok hsome
  have hnew : Stowed (s.prepare.sectionContext options e) (.new options.recordTrace before) := by
    simp [Stowed, SectionState.new]
  obtain ⟨_, items, hcode, hlands⟩ := deposits_compile hnet hrun hnew
  obtain ⟨steps, hsteps, hall⟩ := exists_steps_of_items hlands 0
  refine ⟨steps, ?_, fun x hx r hr => ?_⟩
  · rw [← hcode', Machine.decode?, hcode]
    simpa [SectionState.new] using hsteps
  · have hpos := Machine.pos_of_destination? hr
    refine (hall x hx r hr).imp_left fun hin => ⟨?_, hin⟩
    unfold Stack.size Stack.invalid at *
    omega

/-- A script gives the color of an emission. -/
def tinted : List Change :=
  [.addNode ⟨.script (.file "tint.oso"), [], [⟨"Tint", .color⟩]⟩, .add .emission,
    .connect 1 "Tint" 2 "Color", .connect 2 "Emission" 0 "Surface"]

/-- The color is written into the first three slots, and everything else is inside the stack as
well. -/
theorem tinted_destinations : let s := withGraph "" (Graph.new.changes tinted)
    let program := (s.compileBytecode {} .empty).1.program
    (∀ c ∈ tinted, c.IsStandard) ∧ s.prepare.graph.Roomy ∧
      ∃ steps, Machine.decode? (program.code .surface) = some steps ∧
        (∃ x ∈ steps, x.destination? = some (0, 3)) ∧
        ∀ x ∈ steps, ∀ r, x.destination? = some r →
          r.1 ≠ Stack.invalid ∧ r.1 + r.2 ≤ Stack.size := by
  intro s program
  have hcs : ∀ c ∈ tinted, c.IsStandard := by
    simp only [tinted, List.forall_mem_cons]
    exact ⟨rfl, trivial, trivial, trivial, List.forall_mem_nil _⟩
  have hroomy : s.prepare.graph.Roomy := by decide +kernel
  have hsome : (program.entries.get? .surface).isSome = true := by decide +kernel
  have hcolor : (Machine.decode? (program.code .surface)).any
      (·.any fun x => x.destination? == some (0, 3)) = true := by decide +kernel
  obtain ⟨steps, hsteps, hall⟩ := destinations_inside hcs rfl {} .empty hsome
  rw [hsteps, Option.any_some, List.any_eq_true] at hcolor
  obtain ⟨x, hx, hfirst⟩ := hcolor
  exact ⟨hcs, hroomy, steps, hsteps, ⟨x, hx, eq_of_beq hfirst⟩, fun x hx r hr =>
    (hall x hx r hr).resolve_right fun hzero => hzero.2 hroomy⟩

end Shader

end Shading
