import Shading.Proofs.ClosureWeight
import Shading.Proofs.Numbering
import Shading.Proofs.Settled
import Shading.Proofs.StepRelations

/-!
# What a section gains

Whatever else a step of the construction does, it only adds: instructions are appended, nodes get
done, and the flags and requests of a section are those of its done nodes.  `Appended` is what the
instructions of a node do, `Gains` what any number of nodes does.
-/

namespace Shading

open Emit SectionContext Shading.Graph List Machine Moves Network OrderedSet

variable {key : AttributeKey} {u : Unit} {k : NodeKind} {R : SectionState → SectionState → Prop}
  {root : NodeId}

/-! ## Flags -/

namespace ShaderFlags

instance : Max ShaderFlags := ⟨union⟩

/-- Flags are ordered by which of them are set. -/
instance : SemilatticeSup ShaderFlags :=
  SemilatticeSup.mk' (fun f g => by simp [Max.max, union, Bool.or_comm])
    (fun f g h => by simp [Max.max, union, Bool.or_assoc]) fun f => by simp [Max.max, union]

instance : OrderBot ShaderFlags where
  bot := {}
  bot_le f := by
    change union {} f = f
    simp [union]

lemma union_le_iff {f g h : ShaderFlags} : f.union g ≤ h ↔ f ≤ h ∧ g ≤ h := sup_le_iff

end ShaderFlags

/-! ## Instructions -/

/-- Whether an operand is the number of a key, in a table and in all that go on from it. -/
def AttributeIds.Numbers (ids : AttributeIds) (key : AttributeKey) (word : Int32) : Prop :=
  ∀ ids', ids ≤ ids' → ∃ n, ids'.lookupKey key = (n, ids') ∧ word = Int32.ofNat n

lemma AttributeIds.Numbers.mono {ids ids' : AttributeIds} {word : Int32}
    (h : ids.Numbers key word) (hle : ids ≤ ids') : ids'.Numbers key word :=
  fun _ hle' => h _ (hle.trans hle')

/-- If an instruction reads an attribute, its operand is the number of a key that may be read. -/
def ReadsKey (ids : AttributeIds) (K : AttributeKey → Prop) (i : Instruction)
    (_ : List Instruction) (o : Opcode) : Prop :=
  o = .attr → ∃ key, K key ∧ ids.Numbers key i.w1

variable {K K' : AttributeKey → Prop} {ids ids' : AttributeIds} {words : List Instruction}
  {s s' s'' : SectionState} {A A' : Instruction → List Instruction → Opcode → Prop}

lemma ReadsKey.mono {i : Instruction} {data : List Instruction} {o : Opcode}
    (h : ReadsKey ids K i data o) (hids : ids ≤ ids') (hK : ∀ key, K key → K' key) :
    ReadsKey ids' K' i data o := by
  intro e
  obtain ⟨key, hkey, hn⟩ := h e
  exact ⟨key, hK key hkey, hn.mono hids⟩

/-- Instructions with their data have been appended, of each of which `A` holds. -/
def Machine.Extends (A : Instruction → List Instruction → Opcode → Prop) (s s' : SectionState) :
    Prop :=
  ∃ items : List (List Instruction), s'.code.toList = s.code.toList ++ items.flatten ∧
    ∀ c ∈ items, Item A c

namespace Machine.Extends

lemma of_eq (h : s'.code = s.code) : Extends A s s' := ⟨[], by simp [h], by simp⟩

lemma item (h : s'.code.toList = s.code.toList ++ words) (hw : Item A words) : Extends A s s' :=
  ⟨[words], by simpa using h, by simpa using hw⟩

lemma trans (h : Extends A s s') (h' : Extends A s' s'') : Extends A s s'' := by
  obtain ⟨items, hcode, hA⟩ := h
  obtain ⟨items', hcode', hA'⟩ := h'
  refine ⟨items ++ items', ?_, forall_mem_append.2 ⟨hA, hA'⟩⟩
  rw [hcode', hcode, flatten_append, append_assoc]

lemma mono (h : Extends A s s') (hA : ∀ i data o, A i data o → A' i data o) : Extends A' s s' := by
  obtain ⟨items, hcode, hall⟩ := h
  exact ⟨items, hcode, fun c hc => (hall c hc).mono hA⟩

/-- A jump whose target is filled in after what stands behind it. -/
lemma jump {o : Opcode} {w : Int32} (hj : ∀ a, Item A [.op o a w 0])
    (h : Extends A { s with code := s.code.push (.op o 0 w 0) } s')
    (hpatch : patchJump s.code.size s' = .ok u s'') : Extends A s s'' := by
  obtain ⟨items, hcode, hA⟩ := h
  cases hpatch
  refine ⟨[.op o (Int32.ofNat (s'.code.size - s.code.size - 1)) w 0] :: items, ?_,
    forall_mem_cons.2 ⟨hj _, hA⟩⟩
  rw [Array.toList_modify, hcode, Array.toList_push, append_assoc, ← Array.length_toList,
    singleton_append, modify_append_cons]
  rfl

end Machine.Extends

/-- The instructions that were appended read keys that may be read. -/
def Grows (K : AttributeKey → Prop) (s s' : SectionState) : Prop :=
  s.ids ≤ s'.ids ∧ Extends (ReadsKey s'.ids K) s s'

lemma Grows.refl (s : SectionState) : Grows K s s := ⟨le_rfl, .of_eq rfl⟩

lemma Grows.trans (h : Grows K s s') (h' : Grows K s' s'') : Grows K s s'' :=
  ⟨h.1.trans h'.1, (h.2.mono fun _ _ _ hk => hk.mono h'.1 fun _ hk => hk).trans h'.2⟩

lemma Grows.mono (h : Grows K s s') (hK : ∀ key, K key → K' key) : Grows K' s s' :=
  ⟨h.1, h.2.mono fun _ _ _ hk => hk.mono le_rfl hK⟩

/-! ## The instructions of a node -/

/-- Outputs that feed nothing keep their slots. -/
def SectionContext.Retains (ctx : SectionContext) (s s' : SectionState) : Prop :=
  ∀ x ∈ s.outputSlots, (∀ n i, ctx.graph.net.inputLink? n i ≠ some x.1) →
    ∃ slot, (x.1, slot) ∈ s'.outputSlots

variable {ctx : SectionContext} {id : NodeId} {α β : Type}

lemma SectionContext.Retains.of_eq (h : s'.outputSlots = s.outputSlots := by rfl) :
    ctx.Retains s s' := fun x hx _ => ⟨x.2, h ▸ hx⟩

lemma SectionContext.Retains.trans (h : ctx.Retains s s') (h' : ctx.Retains s' s'') :
    ctx.Retains s s'' := by
  intro x hx hn
  obtain ⟨slot, hslot⟩ := h x hx hn
  exact h' (x.1, slot) hslot hn

/-- What the instructions of a node do: they are appended, and the flags, the requests and the nodes
that are done stay as they are. -/
structure Appended (ctx : SectionContext) (K : AttributeKey → Prop) (s s' : SectionState) :
    Prop where
  grows : Grows K s s'
  flags : s'.flags = s.flags
  requests : s'.requests = s.requests
  done : s'.done = s.done
  closures : s'.closureDone = s.closureDone
  retains : ctx.Retains s s'

instance : IsPreorder SectionState (Appended ctx K) where
  refl s := ⟨.refl s, rfl, rfl, rfl, rfl, .of_eq⟩
  trans _ _ _ h h' := ⟨h.grows.trans h'.grows, h'.flags.trans h.flags, h'.requests.trans h.requests,
    h'.done.trans h.done, h'.closures.trans h.closures, h.retains.trans h'.retains⟩

/-- The slots of inputs do not matter. -/
lemma Appended.of_eq (hcode : s'.code = s.code := by rfl) (hids : s'.ids = s.ids := by rfl)
    (hflags : s'.flags = s.flags := by rfl) (hrequests : s'.requests = s.requests := by rfl)
    (hdone : s'.done = s.done := by rfl) (hclosures : s'.closureDone = s.closureDone := by rfl)
    (houtputs : s'.outputSlots = s.outputSlots := by rfl) : Appended ctx K s s' :=
  ⟨⟨hids.ge, .of_eq hcode⟩, hflags, hrequests, hdone, hclosures, .of_eq houtputs⟩

/-- A step that depends on the state it finds. -/
lemma Moves.of_get {f : SectionState → Emit α}
    (h : ∀ s a s', f s s = .ok a s' → R s s') : Moves R (get >>= f) := fun s a s' hs => h s a s' hs

lemma ofGraph_eq_ok {x : Except GraphError α} {a : α} :
    ofGraph x s = .ok a s' ↔ x = .ok a ∧ s' = s := by
  cases x with
  | ok b =>
    change EStateM.Result.ok b s = .ok a s' ↔ _
    simp [eq_comm]
  | error e =>
    change EStateM.Result.error (BytecodeError.graph e) s = .ok a s' ↔ _
    simp

lemma Moves.ofGraph_bind {x : Except GraphError α}
    {f : α → Emit β} (h : ∀ a, x = .ok a → Moves R (f a)) : Moves R (ofGraph x >>= f) := by
  intro s b s' hs
  obtain ⟨a, t, hask, hf⟩ := bind_eq_ok.1 hs
  obtain ⟨hx, rfl⟩ := ofGraph_eq_ok.1 hask
  exact h a hx hf

/-- Taking slots changes the stack alone. -/
lemma claim_eq_ok {size slot : Nat} (h : claim size s = .ok slot s') :
    ∃ stack, s.stack.claim size s.code.size = .ok (slot, stack) ∧ s' = { s with stack } := by
  obtain ⟨_, _, hget, h⟩ := bind_eq_ok.1 h
  cases hget
  cases hc : s.stack.claim size s.code.size <;> rw [hc] at h <;> cases h
  exact ⟨_, rfl, rfl⟩

lemma read_eq_ok {offset size : Nat} (h : read offset size s = .ok u s') :
    ∃ stack, s.stack.read offset size s.code.size = .ok stack ∧ s' = { s with stack } := by
  obtain ⟨_, _, hget, h⟩ := bind_eq_ok.1 h
  cases hget
  cases hr : s.stack.read offset size s.code.size <;> rw [hr] at h <;> cases h
  exact ⟨_, rfl, rfl⟩

lemma moves_claim (size : Nat) : Moves (Appended ctx K) (claim size) := by
  intro s slot s' h
  obtain ⟨stack, _, rfl⟩ := claim_eq_ok h
  exact .of_eq

lemma moves_read (offset size : Nat) : Moves (Appended ctx K) (read offset size) := by
  intro s u s' h
  obtain ⟨stack, _, rfl⟩ := read_eq_ok h
  exact .of_eq

lemma moves_setPhase (phase : Phase) : Moves (Appended ctx K) (setPhase phase) :=
  .modify fun _ => .of_eq

lemma Moves.of_puts {m : Emit PUnit} (h : Puts m) : Moves (Appended ctx K) m := by
  intro s a s' hm
  obtain ⟨words, hw, heq⟩ := h
  rw [heq] at hm
  cases hm
  exact ⟨⟨le_rfl, .item (by simp) (hw.mono fun _ _ _ ho e => absurd e ho)⟩, rfl, rfl, rfl, rfl,
    .of_eq⟩

lemma handles_appended : Handles fun _ m => Moves (Appended ctx K) m where
  toComposes := composes
  get_bind _ := .get_bind
  claim := moves_claim
  read := moves_read
  release _ _ := .modify fun _ => .of_eq
  addUser _ _ := .modify fun _ => .of_eq
  setInputSlot _ _ _ := .modify fun _ => .of_eq
  setOutputSlot _ _ _ := .modify fun s => ⟨.refl s, rfl, rfl, rfl, rfl, fun x hx _ =>
    SlotTable.exists_mem_insert ⟨x.2, hx⟩⟩
  setWeight _ := .modify fun _ => .of_eq
  single ho := .of_puts (.single ho)
  data ho := .of_puts (.data ho)

/-! ### Attributes -/

/-- The attributes that the instructions of a node read. -/
def SectionContext.Reads (ctx : SectionContext) (id : NodeId) (key : AttributeKey) : NodeKind → Prop
  | .namedAttribute name => key = .ofName name ∧
      ∃ output ∈ ["Color", "Vector", "Fac"], ctx.isOutputLinked id output = true
  | .textureCoordinate .. =>
      key = .standard .generated ∧ ctx.background = false ∧
        ctx.isOutputLinked id "Generated" = true ∨
        key = .standard .uv ∧ ctx.isOutputLinked id "UV" = true
  | .imageTexture .. => key = .standard .uv ∧ ctx.isLinked id "Vector" = false
  | .checkerTexture =>
      key = .standard .generated ∧ ctx.background = false ∧ ctx.isLinked id "Vector" = false
  | _ => False

lemma moves_attributeWord (key : AttributeKey) : Moves (Appended ctx K) (attributeWord key) := by
  intro s word s' h
  cases h
  exact ⟨⟨(s.ids.lookupKey_spec key).1, .of_eq rfl⟩, rfl, rfl, rfl, rfl, .of_eq⟩

lemma moves_emitAttributeRead (hkey : K key) (slot : Nat) (width : Int32) :
    Moves (Appended ctx K) (emitAttributeRead key slot width) := by
  intro s a s' h
  obtain ⟨hle, hnum⟩ := s.ids.lookupKey_spec key
  cases h
  refine ⟨⟨hle, .item Array.toList_push ?_⟩, rfl, rfl, rfl, rfl, .of_eq⟩
  exact ⟨.attr, Opcode.ofWord?_word _, rfl, fun _ => ⟨key, hkey, fun ids' h => ⟨_, hnum ids' h, rfl⟩⟩⟩

lemma moves_emitAttribute {name : String}
    (hK : ∀ output ∈ ["Color", "Vector", "Fac"], ctx.isOutputLinked id output = true →
      K (.ofName name)) : Moves (Appended ctx K) (ctx.emitAttribute id name) := by
  rw [emitAttribute_eq]
  refine (moves_attributeWord _).bind fun _ => bind (.forIn (fun x hx _ => ?_) _) fun _ => .pure _
  refine .ite (fun hlinked => ?_) fun _ => .pure _
  have hmem : x.1 ∈ ["Color", "Vector", "Fac"] := mem_map_of_mem hx
  exact bind (handles_appended.assignOutput x.1) fun slot =>
    (moves_emitAttributeRead (hK x.1 hmem hlinked) _ _).bind fun _ => .pure _

lemma moves_emitGenerated (hK : ctx.background = false → K (.standard .generated)) (slot : Nat) :
    Moves (Appended ctx K) (ctx.emitGenerated slot) :=
  handles_appended.emitGenerated (fun hb slot => moves_emitAttributeRead (hK hb) slot _) slot

/-- The instructions of a node are appended, and read the attributes that the node reads. -/
theorem moves_emitNode (node : Node) :
    Moves (Appended ctx fun key => ctx.Reads id key node.kind) (ctx.emitNode id node) := by
  have h : Handles fun _ m => Moves (Appended ctx fun key => ctx.Reads id key node.kind) m :=
    handles_appended
  refine h.plain.emitNode ?_ ?_ ?_ ?_ ?_
  · intro name hk
    rw [hk]
    exact moves_emitAttribute fun output ho hl => ⟨rfl, output, ho, hl⟩
  · intro fromDupli transform hk
    refine h.emitTextureCoordinate (fun hl => moves_emitGenerated fun hb => ?_)
      (fun _ => .of_puts .normal) (fun hl slot => moves_emitAttributeRead ?_ slot _) fun _ =>
        .of_puts .object
    · rw [hk]
      exact .inl ⟨rfl, hb, hl⟩
    · rw [hk]
      exact .inr ⟨rfl, hl⟩
  · intro slot filename colorspace hk
    refine h.emitImage (fun hl slot => moves_emitAttributeRead ?_ slot _) slot colorspace
    rw [hk]
    exact ⟨rfl, hl⟩
  · intro hk
    refine h.emitChecker fun hl => moves_emitGenerated fun hb => ?_
    rw [hk]
    exact ⟨rfl, hb, hl⟩
  · intro invert useObjectSpace _
    exact h.plain.emitBump (fun _ => h.shareOutput ..) invert useObjectSpace

lemma tends_appended : Tends ctx fun _ m => Moves (Appended ctx K) m where
  toComposes := composes
  get_bind _ := .get_bind
  setPhase := moves_setPhase
  release := handles_appended.release
  forgetOutput _ hl := .modify fun s => ⟨.refl s, rfl, rfl, rfl, rfl, fun x hx hn =>
    ⟨x.2, SlotTable.mem_erase.2 ⟨hx, fun e => hn _ _ (e ▸ hl)⟩⟩⟩
  forgetInput _ := .modify fun _ => .of_eq

/-! ## Nodes -/

namespace SectionContext

/-- The flags of a node, apart from those of a closure. -/
def valueFlags (ctx : SectionContext) (n : NodeId) : ShaderFlags :=
  (ctx.graph.net.kind? n).elim ⊥ (nodeFlags ctx.entry)

/-- The flags that a node has as a closure. -/
def leafFlags (ctx : SectionContext) (n : NodeId) : ShaderFlags :=
  (ctx.graph.net.kind? n).elim ⊥ (ctx.closureFlags n)

end SectionContext

/-- Whether a node asks for an attribute. -/
def Graph.Asks (g : Graph) (background : Bool) (n : NodeId) (key : AttributeKey) : Prop :=
  key ∈ g.addAttributes background .empty n

/-- A node adds the attributes that it asks for. -/
lemma Graph.mem_addAttributes {g : Graph} {background : Bool} {requests : AttributeSet}
    {n : NodeId} :
    key ∈ g.addAttributes background requests n ↔ key ∈ requests ∨ g.Asks background n key := by
  have hempty := not_mem_empty key
  unfold Asks addAttributes
  split
  · simp [hempty]
  split
  · split <;> simp [hempty, AttributeSet.insertName, mem_insert]
  · split_ifs <;> simp [hempty, AttributeSet.insertStandard, mem_insert, or_assoc]
  · split <;> simp [hempty, AttributeSet.insertStandard, mem_insert]
  · split <;> simp [hempty, AttributeSet.insertStandard, mem_insert]
  · simp [hempty]

/-- What the nodes that got done and the closures that were visited in between amount to.  `K` are
the attributes that may be read although they are not requested. -/
structure Gains (ctx : SectionContext) (K : AttributeKey → Prop) (nodes visited : List NodeId)
    (s s' : SectionState) : Prop where
  done : ∀ n, n ∈ s'.done ↔ n ∈ s.done ∨ n ∈ nodes
  begun : ∀ n, n ∈ s'.closureDone ↔ n ∈ s.closureDone ∨ n ∈ visited
  flags : ∀ f, s'.flags ≤ f ↔ s.flags ≤ f ∧ (∀ n ∈ nodes, ctx.valueFlags n ≤ f) ∧
    ∀ n ∈ visited, ctx.leafFlags n ≤ f
  leaves : ∀ n ∈ visited, n ∈ nodes ∨ ctx.leafFlags n = ⊥
  requests : ∀ key, key ∈ s'.requests ↔
    key ∈ s.requests ∨ ∃ n ∈ nodes, ctx.graph.Asks ctx.background n key
  grows : Grows (fun key => key ∈ s'.requests ∨ K key) s s'
  retains : ctx.Retains s s'

/-- Some nodes got done and some closures were visited. -/
def Gained (ctx : SectionContext) (K : AttributeKey → Prop) (s s' : SectionState) : Prop :=
  ∃ nodes visited, Gains ctx K nodes visited s s'

variable {nodes nodes' visited visited' : List NodeId}

lemma Gains.requests_of_mem (h : Gains ctx K nodes visited s s') (key : AttributeKey)
    (hkey : key ∈ s.requests) : key ∈ s'.requests :=
  (h.requests key).2 (.inl hkey)

lemma Gains.trans (h : Gains ctx K nodes visited s s') (h' : Gains ctx K nodes' visited' s' s'') :
    Gains ctx K (nodes ++ nodes') (visited ++ visited') s s'' := by
  refine ⟨fun n => ?_, fun n => ?_, fun f => ?_, ?_, fun key => ?_, ?_, h.retains.trans h'.retains⟩
  · rw [h'.done, h.done, mem_append, or_assoc]
  · rw [h'.begun, h.begun, mem_append, or_assoc]
  · rw [h'.flags, h.flags, forall_mem_append, forall_mem_append]
    tauto
  · refine forall_mem_append.2 ⟨fun n hn => ?_, fun n hn => ?_⟩
    · exact (h.leaves n hn).imp_left (mem_append_left _)
    · exact (h'.leaves n hn).imp_left (mem_append_right _)
  · rw [h'.requests, h.requests, or_assoc]
    simp only [mem_append, or_and_right, exists_or]
  · exact (h.grows.mono fun key hk => hk.imp_left (h'.requests_of_mem key)).trans h'.grows

lemma Appended.gains {L : AttributeKey → Prop} (h : Appended ctx L s s')
    (hL : ∀ key, L key → key ∈ s.requests ∨ K key) : Gains ctx K [] [] s s' := by
  refine ⟨fun n => by simp [h.done], fun n => by simp [h.closures], fun f => by simp [h.flags],
    by simp, fun key => by simp [h.requests], ?_, h.retains⟩
  rw [h.requests]
  exact h.grows.mono hL

instance : IsPreorder SectionState (Gained ctx K) where
  refl s := ⟨[], [], (refl_of (Appended ctx fun _ => False) s).gains nofun⟩
  trans _ _ _ := by
    rintro ⟨_, _, h⟩ ⟨_, _, h'⟩
    exact ⟨_, _, h.trans h'⟩

/-- Steps that read no attributes. -/
lemma Moves.gained {m : Emit α} (h : Moves (Appended ctx fun _ => False) m) : Moves (Gained ctx K) m :=
  h.mono fun h => ⟨[], [], h.gains nofun⟩

/-! ### Sets of nodes -/

/-- Whether every attribute that a node reads is requested, apart from some. -/
def SectionContext.Requests (ctx : SectionContext) (K : AttributeKey → Prop) : Prop :=
  ∀ {n node key}, ctx.graph.net.node? n = some node → ctx.Reads n key node.kind →
    (∀ requests, key ∈ ctx.graph.addAttributes ctx.background requests n) ∨ K key

lemma generateNode_eq_ok (hK : ctx.Requests K) (h : ctx.generateNode id s = .ok u s') :
    Gains ctx K [id] [] s s' := by
  obtain ⟨_, s₁, h₁, hr₁⟩ := bind_eq_ok.1 h
  obtain ⟨node, _, h₂, hr₂⟩ := bind_eq_ok.1 hr₁
  obtain ⟨_, s₃, h₃, hr₃⟩ := bind_eq_ok.1 hr₂
  obtain ⟨_, s₄, h₄, hr₄⟩ := bind_eq_ok.1 hr₃
  obtain ⟨_, t, h₅, hend⟩ := bind_eq_ok.1 hr₄
  obtain ⟨hnode, rfl⟩ := ofGraph_eq_ok.1 h₂
  rw [require_eq_ok_iff] at hnode
  have hst : Appended ctx (fun key => ctx.Reads id key node.kind) s t :=
    trans_of _ (moves_setPhase _ h₁) (trans_of _ (moves_emitNode node h₃)
      (trans_of _ (tends_appended.clearUsers h₄) (tends_appended.clearConstants h₅)))
  have hflags : ctx.valueFlags id = nodeFlags ctx.entry node.kind := by
    rw [valueFlags, kind?_of_node? hnode]
    rfl
  cases hend
  refine ⟨fun n => ?_, fun n => ?_, fun f => ?_, by simp, fun key => ?_, ?_, hst.retains⟩
  · simp [mem_insert, hst.done]
  · simp [hst.closures]
  · simp [ShaderFlags.union_le_iff, hst.flags, hflags]
  · simp [mem_addAttributes, hst.requests]
  · exact ⟨hst.grows.1, (hst.grows.mono fun key hkey => (hK hnode hkey).imp_left fun h => h _).2⟩

lemma moves_emitSet (hK : ctx.Requests K) (set : NodeSet) :
    Moves (Gained ctx K) (ctx.emitSet set) := by
  refine (moves_setPhase _).gained.bind fun _ => bind ?_ fun _ => .pure _
  refine Emission.moves_run (fun n _ => ?_) _
  exact bind (fun s u s' h => ⟨_, _, generateNode_eq_ok hK h⟩) fun _ =>
    (moves_setPhase _).gained

/-! ## Closures -/

lemma moves_emitInput (hK : ctx.Requests K) (input : Nat) :
    Moves (Gained ctx K) (ctx.emitInput id input) :=
  .ite (fun _ => .pure _) fun _ => bind (gained (tends_appended.collect ..)) fun _ =>
    moves_emitSet hK _

lemma moves_leaf (hK : ctx.Requests K) {node : Node} (hnode : ctx.net.node? id = some node) :
    Moves (Gained ctx K) (do
      markClosure id
      ctx.generateClosure id node
      markDone id) := by
  intro s u s' h
  obtain ⟨_, s₁, hmark, hr₁⟩ := bind_eq_ok.1 h
  obtain ⟨_, s₂, hgen, hdone⟩ := bind_eq_ok.1 hr₁
  obtain ⟨_, s₃, h₃, hr₃⟩ := bind_eq_ok.1 hgen
  obtain ⟨_, s₄, h₄, hr₄⟩ := bind_eq_ok.1 hr₃
  obtain ⟨_, t, h₅, hend⟩ := bind_eq_ok.1 hr₄
  have hinputs : Gained ctx K s₁ s₃ := by
    refine forM (fun i _ => ?_) h₃
    exact moves_emitInput hK i
  obtain ⟨nodes, visited, hgains⟩ :=
    trans_of (Gained ctx K) hinputs (gained (handles_appended.assignWeight node) h₄)
  have ht := hgains.trans (generateNode_eq_ok hK h₅)
  have hflags : ctx.leafFlags id = ctx.closureFlags id node.kind := by
    rw [leafFlags, kind?_of_node? hnode]
    rfl
  cases hmark
  cases hend
  cases hdone
  refine ⟨nodes ++ [id], id :: (visited ++ []), fun n => ?_, fun n => ?_, fun f => ?_, ?_,
    ht.requests, ht.grows, ht.retains⟩
  · rw [mem_insert, ht.done, mem_append, mem_singleton]
    tauto
  · rw [ht.begun, mem_insert, mem_cons]
    tauto
  · rw [ShaderFlags.union_le_iff, ht.flags, forall_mem_cons, hflags]
    tauto
  · exact forall_mem_cons.2 ⟨.inl (by simp), ht.leaves⟩

section

variable (hk : ctx.net.kind? id = some k) (hc : k.special = .combineClosure)
include hk hc

lemma flags_of_combineClosure : ctx.valueFlags id = ⊥ ∧ ctx.leafFlags id = ⊥ := by
  obtain ⟨node, hn, hkind⟩ := kind?_eq_some_iff.1 hk
  obtain rfl | rfl := special_eq_combineClosure.1 hc
  all_goals
    have hbump : ctx.graph.hasBump id = false := by
      simp [hasBump, hn, hkind, NodeKind.isClosure]
    constructor
    · rw [valueFlags, hk, Option.elim_some]
      cases ctx.entry <;> rfl
    · rw [leafFlags, hk, Option.elim_some, closureFlags, hbump]
      split <;> rfl

lemma not_asks_of_combineClosure (background : Bool) (key : AttributeKey) :
    ¬ ctx.graph.Asks background id key := by
  obtain ⟨node, hn, hkind⟩ := kind?_eq_some_iff.1 hk
  have hempty := not_mem_empty key
  obtain rfl | rfl := special_eq_combineClosure.1 hc
  all_goals
    simp [Asks, addAttributes, hn, hkind, hempty]

lemma moves_markClosure : Moves (Gained ctx K) (markClosure id) := by
  refine .modify fun s => ⟨[], [id], by simp, fun n => ?_, fun f => ?_, ?_, by simp, .refl _,
    .of_eq⟩
  · simp [mem_insert]
  · simp [(flags_of_combineClosure hk hc).2]
  · simp [(flags_of_combineClosure hk hc).2]

lemma moves_finish : Moves (Gained ctx K) (ctx.finish id) := by
  refine bind (.modify fun s => ⟨[id], [], fun n => ?_, by simp, fun f => ?_, by simp,
    fun key => ?_, .refl _, .of_eq⟩) fun _ => gained tends_appended.clearUsers
  · simp [mem_insert]
  · simp [(flags_of_combineClosure hk hc).1]
  · simp [not_asks_of_combineClosure hk hc]

end

/-- A jump whose target is filled in after what stands behind it. -/
lemma gained_jump {o : Opcode} (ho : o = .jumpIfOne ∨ o = .jumpIfZero) {w : Int32}
    {t : SectionState} (h : Gained ctx K { s with code := s.code.push (.op o 0 w 0) } t)
    (hpatch : patchJump s.code.size t = .ok u s') : Gained ctx K s s' := by
  obtain ⟨nodes, visited, hd, hb, hf, hl, hr, ⟨hids, hext⟩, hh⟩ := h
  refine ⟨nodes, visited, ?_⟩
  have hgrows := hext.jump (fun a => (?_ : Whole _).mono fun _ _ _ ho e => absurd e ho) hpatch
  · cases hpatch
    exact ⟨hd, hb, hf, hl, hr, ⟨hids, hgrows⟩, hh⟩
  · obtain rfl | rfl := ho <;> exact .single rfl

/-- A step behind a jump. -/
lemma Moves.jump {o : Opcode} {w : Int32} {m : Emit Unit} (hm : Moves R m)
    (h : ∀ {s t u s'}, R { s with code := s.code.push (.op o 0 w 0) } t →
      patchJump s.code.size t = .ok u s' → R s s') {b : β} : Moves R (do
      let position := (← get).code.size
      op o 0 w 0
      m
      patchJump position
      return b) := by
  refine .of_get fun s _ s' hs => ?_
  obtain ⟨_, t, hop, hrest⟩ := bind_eq_ok.1 hs
  obtain ⟨_, t', hside, hrest'⟩ := bind_eq_ok.1 hrest
  obtain ⟨_, t'', hpatch, hend⟩ := bind_eq_ok.1 hrest'
  cases hop
  cases hend
  exact h (hm hside) hpatch

lemma walking_gained (hK : ctx.Requests K) : Walking ctx fun _ m => Moves (Gained ctx K) m where
  toComposes := composes
  get_bind _ := .get_bind
  leaf hnode := moves_leaf hK (require_eq_ok_iff.1 hnode)
  begin hnode hc := moves_markClosure (kind?_of_node? (require_eq_ok_iff.1 hnode)) hc
  finish hnode hc := moves_finish (kind?_of_node? (require_eq_ok_iff.1 hnode)) hc
  collect _ _ _ := gained (tends_appended.collect ..)
  emitSet := moves_emitSet hK
  side ho hm := (gained (handles_appended.assignInputAt _)).bind fun _ => hm.jump (gained_jump ho)
  forget _ := gained (tends_appended.forgetInput _)

theorem moves_visit (hK : ctx.Requests K) (root : NodeId) (fuel : Nat) (id : NodeId) :
    Moves (Gained ctx K) (ctx.visit root fuel id) :=
  (walking_gained hK).visit root fuel id

/-! ## Sections -/

/-- A finished section is what the walk has left, with instructions that read no attributes around
it. -/
theorem compile_eq_ok {o : Nat}
    (hl : ctx.net.inputLinkByName? ctx.graph.output ctx.entry.terminal = some (root, o))
    (h : ctx.compile s = .ok u s') : ∃ state s₁ s₂, ctx.enterBump s = .ok state s₁ ∧
      ctx.visitRoot root { s₁ with flags := s₁.flags.union (entryFlags ctx.entry) } = .ok ⟨⟩ s₂ ∧
        Appended ctx (fun _ => False) s₂ s' := by
  obtain ⟨⟨i, x⟩, _, hask, hr₁⟩ := bind_eq_ok.1 h
  obtain ⟨hi, rfl⟩ := ofGraph_eq_ok.1 hask
  obtain ⟨state, s₁, henter, hr₂⟩ := bind_eq_ok.1 hr₁
  have hlink : ctx.net.inputLink? ctx.graph.output i = some (root, o) := by
    obtain ⟨node, hn, hidx, _⟩ := requireInput_eq_ok hi
    simpa [inputLinkByName?, hn, hidx] using hl
  rw [hlink] at hr₂
  obtain ⟨_, s₂, hflags, hr₃⟩ := bind_eq_ok.1 hr₂
  obtain ⟨_, t, hvisit, hr₄⟩ := bind_eq_ok.1 hr₃
  cases hflags
  refine ⟨state, s₁, t, henter, hvisit, ?_⟩
  have h : Handles fun _ m => Moves (Appended ctx fun _ => False) m := handles_appended
  exact h.ending moves_setPhase h.plain.closing.emitOutput h.leaveBump (h.single rfl) state hr₄

/-- What a finished section has gained from where it started, with the flag of its entry point. -/
lemma gained_of_compile_eq_ok (hK : ctx.Requests K) {o : Nat}
    (hl : ctx.net.inputLinkByName? ctx.graph.output ctx.entry.terminal = some (root, o))
    (h : ctx.compile s = .ok u s') :
    Gained ctx K { s with flags := s.flags.union (entryFlags ctx.entry) } s' := by
  obtain ⟨state, s₁, s₂, henter, hvisit, hend⟩ := compile_eq_ok hl h
  obtain ⟨hgrows, hf, hr, hd, hc, hh⟩ : Appended ctx (fun _ => False) s s₁ :=
    handles_appended.enterBump henter
  have hstart : Appended ctx (fun _ => False) { s with flags := s.flags.union (entryFlags ctx.entry) }
      { s₁ with flags := s₁.flags.union (entryFlags ctx.entry) } :=
    ⟨hgrows, by rw [hf], hr, hd, hc, hh⟩
  exact trans_of (Gained ctx K) ⟨_, _, hstart.gains nofun⟩
    (trans_of (Gained ctx K) (moves_visit hK _ _ _ hvisit) ⟨_, _, hend.gains nofun⟩)

end Shading
