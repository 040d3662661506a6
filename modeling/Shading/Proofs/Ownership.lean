import Mathlib.Logic.Relation
import Shading.Proofs.Changes
import Shading.Proofs.Emission
import Shading.Proofs.Ledger
import Shading.Proofs.StepRelations
import Shading.Proofs.Upstream

/-!
# Who owns the slots of a section

While a section is built its slots belong to the outputs that have been assigned, to the constants
that were loaded for inputs without a link, and to what is held for the moment: the coordinate of a
texture, or the shading state that is saved around a bump.  `Owned` says that this list is an exact
ledger of the stack.  It holds whether the section can be completed or not, and for scripts with
whatever sockets.

A bump without strength does not take slots: it passes on those of the output that feeds it.
Outputs whose slots meet have come by them in this way, from one and the same output (`Akin`).

Displacement ignores links from bumps.  An input with such a link counts as unlinked when it is
assigned a slot, and as linked when slots are given back.  The two can only disagree about an input
that a bump with slots feeds, so it has to be known which bumps have slots (`Tended`): none, until
the bump that feeds the terminal is emitted as the last node.
-/

namespace Shading

open List Network SlotTable

/-! ## Tables without repetitions -/

namespace SlotTable

variable {t : SlotTable} {a : NodeId × Nat} {slot : Nat} {p : (NodeId × Nat) × Nat → Bool}

/-- No socket has two slots. -/
def Single (t : SlotTable) : Prop := (t.map Prod.fst).Nodup

lemma Single.sublist (h : t.Single) {t' : SlotTable} (ht : t'.Sublist t) : t'.Single :=
  Nodup.sublist (ht.map _) h

lemma erase_of_get?_eq_none (h : t.get? a = none) : t.erase a = t := by
  refine filter_eq_self.2 fun e he => ?_
  simpa using ne_of_get?_eq_none h he

lemma Single.insert (h : t.Single) (a : NodeId × Nat) (slot : Nat) : (t.insert a slot).Single := by
  refine nodup_cons.2 ⟨fun hmem => ?_, h.sublist erase_sublist⟩
  obtain ⟨e, he, hea⟩ := mem_map.1 hmem
  exact (mem_erase.1 he).2 hea

/-- A socket's slot is the only one of that socket. -/
lemma Single.perm_cons_erase (h : t.Single) (ha : t.get? a = some slot) :
    t.Perm ((a, slot) :: t.erase a) := by
  have hmem := mem_of_get? ha
  refine (List.perm_cons_erase hmem).trans ((Perm.of_eq ?_).cons _)
  rw [(Nodup.of_map _ h).erase_eq_filter]
  refine filter_congr fun e he => ?_
  have hiff : e = (a, slot) ↔ e.1 = a :=
    ⟨fun heq => heq ▸ rfl, fun hea => inj_on_of_nodup_map h he hmem hea⟩
  simp [bne, hiff]

/-- Entries that are not looked at may go. -/
lemma filter_erase (h : ∀ slot, p (a, slot) = false) : (t.erase a).filter p = t.filter p := by
  rw [erase, filter_filter]
  refine filter_congr fun e _ => ?_
  by_cases hea : e.1 = a
  · have := h e.2
    rw [← hea] at this
    simp [hea, this]
  · simp [hea]

lemma filter_foldl_erase {sockets : List (NodeId × Nat)}
    (h : ∀ a ∈ sockets, ∀ slot, p (a, slot) = false) :
    (sockets.foldl erase t).filter p = t.filter p := by
  induction sockets generalizing t with
  | nil => rfl
  | cons a sockets ih =>
    rw [foldl_cons, ih fun b hb => h b (mem_cons_of_mem _ hb), filter_erase (h a mem_cons_self)]

end SlotTable

/-! ## Owners -/

namespace SectionContext

variable (ctx : SectionContext)

/-- One output passes on the slots of another: it is the normal of a bump without strength, and the
other output feeds that bump. -/
def Shares (a b : NodeId × Nat) : Prop :=
  ∃ node invert useObjectSpace i, ctx.graph.net.node? a.1 = some node ∧
    node.kind = .bump invert useObjectSpace ∧ ctx.isLinked a.1 "Strength" = false ∧
    (node.float "Strength" == 0) = true ∧ node.outputIndex? "Normal" = some a.2 ∧
    node.inputIndex? "Normal" = some i ∧ ctx.link? a.1 i = some b

/-- Two outputs have their slots from the same output. -/
def Akin (a b : NodeId × Nat) : Prop :=
  ∃ c, Relation.ReflTransGen ctx.Shares a c ∧ Relation.ReflTransGen ctx.Shares b c

/-- Which owners may share slots.  Constants and what is held share with nobody. -/
def MayShare : Option (NodeId × Nat) → Option (NodeId × Nat) → Prop
  | some a, some b => ctx.Akin a b
  | _, _ => False

instance : Std.Symm ctx.MayShare where
  symm x y h := by
    cases x with
    | none => exact h.elim
    | some a =>
      cases y with
      | none => exact h.elim
      | some b =>
        obtain ⟨c, ha, hb⟩ := h
        exact ⟨c, hb, ha⟩

lemma not_mayShare_none (x : Option (NodeId × Nat)) : ¬ ctx.MayShare none x := fun h => h.elim

/-- The owners of slots, outputs by name. -/
def holders (held : List SlotRange) (s : SectionState) : List (Option (NodeId × Nat) × SlotRange) :=
  s.outputSlots.map (fun e => (some e.1, ctx.outputRange e)) ++
    ((s.inputSlots.filter ctx.isLoaded).map (fun e => (none, ctx.inputRange e)) ++
      held.map fun r => (none, r))

def IsBump (n : NodeId) : Prop := ∃ k, ctx.graph.net.kind? n = some k ∧ k.special = .bump

end SectionContext

open SectionContext Emit

/-- The owners of the slots of a section are its outputs, its constants and what is held. -/
structure Owned (ctx : SectionContext) (held : List SlotRange) (s : SectionState) : Prop where
  outputs : s.outputSlots.Single
  inputs : s.inputSlots.Single
  ledger : Ledger ctx.MayShare (ctx.holders held s) s.stack

/-- In addition, only some bumps have slots while displacement is compiled. -/
structure Tended (ctx : SectionContext) (S : NodeId → Prop) (held : List SlotRange)
    (s : SectionState) : Prop extends Owned ctx held s where
  bumps : ctx.entry = .displacement → ∀ e ∈ s.outputSlots, ctx.IsBump e.1.1 → S e.1.1

variable {ctx : SectionContext} {S : NodeId → Prop} {held : List SlotRange} {s s' : SectionState}
  {id : NodeId} {source : NodeId × Nat} {form : List Instruction → Prop} {P : SectionState → Prop}
  {i slot o k : Nat} {m : Emit PUnit}

/-- Every slot has as many users as there are outputs, constants and held runs at it. -/
lemma Owned.count (h : Owned ctx held s) (hk : k < Stack.size) :
    s.stack.count k = coverage (s.outputSlots.map ctx.outputRange) k +
      coverage ((s.inputSlots.filter ctx.isLoaded).map ctx.inputRange) k + coverage held k := by
  have hcount : ∀ {α : Type} (l : List α) (f : α → Option (NodeId × Nat) × SlotRange),
      (l.map f).countP (fun x => decide (x.2.Has k)) = coverage (l.map fun a => (f a).2) k := by
    intro α l f
    rw [coverage, countP_map, countP_map]
    exact countP_congr fun a _ => decide_eq_true_iff
  rw [h.ledger.count k hk, holders, countP_append, countP_append, hcount, hcount, hcount,
    map_id', Nat.add_assoc]

/-- Outputs whose slots meet have them from the same output. -/
lemma Owned.akin (h : Owned ctx held s) {e e' : (NodeId × Nat) × Nat} (he : e ∈ s.outputSlots)
    (he' : e' ∈ s.outputSlots) (hk : (ctx.outputRange e).Has k)
    (hk' : (ctx.outputRange e').Has k) : ctx.Akin e.1 e'.1 := by
  by_cases hee : e = e'
  · subst hee
    exact ⟨e.1, .refl, .refl⟩
  · obtain ⟨hagree, _⟩ := pairwise_append.1 h.ledger.agree
    have hmem : ∀ {x}, x ∈ s.outputSlots → (some x.1, ctx.outputRange x) ∈
        s.outputSlots.map fun e => (some e.1, ctx.outputRange e) :=
      fun hx => mem_map.2 ⟨_, hx, rfl⟩
    refine (hagree.forall (hmem he) (hmem he') (fun heq => hee ?_) k hk hk').2
    simp only [Prod.mk.injEq, Option.some.injEq, outputRange] at heq
    exact Prod.ext heq.1 heq.2.1

namespace Tended

lemma congr (h : Tended ctx S held s) (hs : s'.stack = s.stack)
    (ho : s'.outputSlots = s.outputSlots) (hi : s'.inputSlots = s.inputSlots) :
    Tended ctx S held s' where
  outputs := ho ▸ h.outputs
  inputs := hi ▸ h.inputs
  ledger := by
    rw [holders, ho, hi, hs]
    exact h.ledger
  bumps := ho ▸ h.bumps

lemma mono (h : Tended ctx S held s) {T : NodeId → Prop} (hST : ∀ n, S n → T n) :
    Tended ctx T held s :=
  ⟨h.toOwned, fun hd e he hb => hST _ (h.bumps hd e he hb)⟩

lemma replays (h : Tended ctx S held s) : s.stack.Replays := h.ledger.replays

end Tended

/-- What is left of a section that fails can be replayed. -/
def Failed (s : SectionState) : Prop := s.stack.Replays

/-- The step keeps the ledger of the owners. -/
def Keeps (ctx : SectionContext) (S : NodeId → Prop) {α : Type} (m : Emit α) : Prop :=
  ∀ held, Leads (Tended ctx S held) m (fun _ => Tended ctx S held) Failed

/-! ## Elementary steps -/

/-- Keeping the ledger passes on to what is put together from steps. -/
lemma keeps_composes : Composes fun _ m => Keeps ctx S m where
  pure _ _ := .pure fun _ hs => hs
  throw _ _ := .throw fun _ hs => hs.replays
  bind hm hf held := (hm held).bind fun a => hf a held

lemma keeps_setPhase (phase : Phase) : Keeps ctx S (setPhase phase) :=
  fun _ => .modify fun _ h => h.congr rfl rfl rfl

lemma keeps_modifyFlags (f : ShaderFlags → ShaderFlags) : Keeps ctx S (modifyFlags f) :=
  fun _ => .modify fun _ h => h.congr rfl rfl rfl

lemma keeps_markDone (n : NodeId) : Keeps ctx S (markDone n) :=
  fun _ => .modify fun _ h => h.congr rfl rfl rfl

/-- Appending words touches neither the stack nor the tables. -/
lemma Emit.Appends.leads (h : Appends m form) (F : SlotTable → SlotTable → Prop) :
    Leads (fun s => Tended ctx S held s ∧ F s.inputSlots s.outputSlots) m
      (fun _ s => Tended ctx S held s ∧ F s.inputSlots s.outputSlots) Failed := by
  intro s hs
  obtain ⟨words, code, ids, _, _, hm⟩ := h s
  rw [hm]
  exact ⟨hs.1.congr rfl rfl rfl, hs.2⟩

lemma Emit.Appends.keeps (h : Appends m form) :
    Keeps ctx S m := fun _ => .pre (fun _ hs => ⟨hs, trivial⟩)
  ((h.leads fun _ _ => True).post fun _ _ hs => hs.1)

lemma keeps_op (o : Opcode) (a b c : Int32) : Keeps ctx S (op o a b c) := (Appends.push _).keeps

lemma keeps_attributeWord (key : AttributeKey) : Keeps ctx S (attributeWord key) :=
  fun _ _ h => h.congr rfl rfl rfl

lemma holders_held (held : List SlotRange) (r : SlotRange) (s : SectionState) :
    (ctx.holders (r :: held) s).Perm ((none, r) :: ctx.holders held s) := by
  rw [holders, holders, ← append_assoc, ← append_assoc]
  exact perm_middle

lemma leads_claim (F : SlotTable → SlotTable → Prop) (size : Nat) :
    Leads (fun s => Tended ctx S held s ∧ F s.inputSlots s.outputSlots) (claim size)
      (fun slot s => Tended ctx S ((slot, size) :: held) s ∧ F s.inputSlots s.outputSlots)
      Failed := by
  refine .get_bind fun s hs => ?_
  split
  · rename_i offset stack hc
    rintro _ rfl
    refine ⟨⟨⟨hs.1.outputs, hs.1.inputs, ?_⟩, hs.1.bumps⟩, hs.2⟩
    exact (hs.1.ledger.claim hc none).perm (holders_held ..).symm
  · exact .throw fun t ht => ht ▸ hs.1.replays

lemma leads_read (F : SlotTable → SlotTable → Prop) (offset size : Nat) :
    Leads (fun s => Tended ctx S held s ∧ F s.inputSlots s.outputSlots) (read offset size)
      (fun _ s => Tended ctx S held s ∧ F s.inputSlots s.outputSlots) Failed := by
  refine .get_bind fun s hs => ?_
  split
  · rename_i stack hr
    rintro _ rfl
    exact ⟨⟨⟨hs.1.outputs, hs.1.inputs, hs.1.ledger.read hr⟩, hs.1.bumps⟩, hs.2⟩
  · exact .throw fun t ht => ht ▸ hs.1.replays

lemma keeps_read (offset size : Nat) : Keeps ctx S (read offset size) := fun _ =>
  .pre (fun _ hs => ⟨hs, trivial⟩)
    ((leads_read (fun _ _ => True) offset size).post fun _ _ hs => hs.1)

lemma leads_release (slot size : Nat) :
    Leads (Tended ctx S ((slot, size) :: held)) (release slot size)
      (fun _ => Tended ctx S held) Failed := by
  refine .modify fun s hs => ⟨⟨hs.outputs, hs.inputs, ?_⟩, hs.bumps⟩
  exact (hs.ledger.perm (holders_held ..)).release s.code.size

/-! ## Assigning slots -/

/-- What is held becomes the slot of an output. -/
lemma leads_setOutputSlot (hS : ctx.entry = .displacement → ctx.IsBump id → S id) :
    Leads (fun s => Tended ctx S ((slot, ctx.outputSize (id, o)) :: held) s ∧
        s.outputSlots.get? (id, o) = none)
      (setOutputSlot id o slot) (fun _ => Tended ctx S held) Failed := by
  refine .modify fun s ⟨hs, hnew⟩ => ⟨⟨hs.outputs.insert _ _, hs.inputs, ?_⟩, fun hd e he hb => ?_⟩
  · have hledger := hs.ledger.perm (holders_held held _ s)
    dsimp only [holders, SlotTable.insert]
    rw [erase_of_get?_eq_none hnew]
    exact hledger.rename (not_mayShare_none ctx)
  · obtain rfl | ⟨he, _⟩ := mem_insert.1 he
    · exact hS hd hb
    · exact hs.bumps hd e he hb

/-- What is held becomes the constant of an input. -/
lemma leads_setInputSlot (hl : ctx.link? id i = none) :
    Leads (fun s => Tended ctx S ((slot, ctx.inputSize (id, i)) :: held) s ∧
        s.inputSlots.get? (id, i) = none)
      (setInputSlot id i slot) (fun _ => Tended ctx S held) Failed := by
  refine .modify fun s ⟨hs, hnew⟩ => ⟨⟨hs.outputs, hs.inputs.insert _ _, ?_⟩, hs.bumps⟩
  have hledger := hs.ledger.perm (holders_held held _ s)
  have hloaded : ctx.isLoaded ((id, i), slot) = true := by simp [isLoaded, hl]
  dsimp only [holders, SlotTable.insert]
  rw [erase_of_get?_eq_none hnew, filter_cons_of_pos hloaded, map_cons]
  exact hledger.perm perm_middle.symm

/-- The slot of a linked input belongs to what feeds it. -/
lemma keeps_setInputSlot (hl : ctx.link? id i = some source) :
    Keeps ctx S (setInputSlot id i slot) := by
  intro held
  refine .modify fun s hs => ⟨⟨hs.outputs, hs.inputs.insert _ _, ?_⟩, hs.bumps⟩
  have hlinked : ∀ slot, ctx.isLoaded ((id, i), slot) = false := by simp [isLoaded, hl]
  have hsame : (s.inputSlots.insert (id, i) slot).filter ctx.isLoaded =
      s.inputSlots.filter ctx.isLoaded := by
    rw [SlotTable.insert, filter_cons_of_neg (by simp [hlinked])]
    exact filter_erase hlinked
  dsimp only [holders]
  rw [hsame]
  exact hs.ledger

lemma keeps_readLink (socket : String) (size : Nat) (source : NodeId × Nat) :
    Keeps ctx S (readLink id socket size source) := by
  intro held
  refine .get_bind fun s hs => ?_
  split
  · refine .throw ?_
    rintro _ rfl
    exact hs.replays
  · refine .pre ?_ ((keeps_read _ size held).bind fun _ => .pure fun _ h => h)
    rintro _ rfl
    exact hs

lemma leads_slotSize (hP : ∀ s, P s → Failed s) (socket : String) (ty : SocketType) :
    Leads P (slotSize id socket ty) (fun size s => P s ∧ ty.stackSize? = some size) Failed := by
  unfold slotSize
  split
  · rename_i size hsize
    exact .pure fun _ hs => ⟨hs, hsize⟩
  · exact .throw hP

lemma keeps_assignInputAt (i : Nat) : Keeps ctx S (ctx.assignInputAt id i) := by
  intro held
  unfold assignInputAt
  split
  · exact .throw fun _ hs => hs.replays
  rename_i socket hx
  refine (leads_slotSize (fun _ hs => hs.replays) _ _).bind fun size => .of_and fun hsize => ?_
  have hin : ctx.inputSize (id, i) = size := by simp [inputSize, hx, hsize]
  refine .ite (fun _ => .pure fun _ hs => hs) fun _ => ?_
  split
  · rename_i source hl
    exact (keeps_readLink _ _ _ held).bind fun slot => (keeps_setInputSlot hl held).bind fun _ =>
      .pure fun _ hs => hs
  · rename_i hl
    refine .get_bind fun s hs => ?_
    split
    · refine .pure ?_
      rintro _ rfl
      exact hs
    · rename_i hnew
      have hclaim : Leads (fun s => Tended ctx S held s ∧ s.inputSlots.get? (id, i) = none)
          (claim size) _ Failed := leads_claim (fun t _ => t.get? (id, i) = none) size
      rw [← hin] at hclaim ⊢
      refine .pre (fun t ht => ?_) (hclaim.bind fun slot =>
        (appends_loadConstant.leads fun t _ => t.get? (id, i) = none).bind fun _ =>
          (leads_setInputSlot hl).bind fun _ => .pure fun _ hs => hs)
      subst ht
      exact ⟨hs, hnew⟩

lemma leads_ofGraph {α : Type} (hP : ∀ s, P s → Failed s) (x : Except GraphError α) :
    Leads P (ofGraph x) (fun a s => P s ∧ x = .ok a) Failed := by
  cases x with
  | ok a => exact .pure fun _ hs => ⟨hs, rfl⟩
  | error e => exact .throw hP

lemma outputSize_of_requireOutput {name : String} {size : Nat} {ty : SocketType}
    (h : ctx.graph.requireOutput id name = .ok (o, ty)) (hsize : ty.stackSize? = some size) :
    ctx.outputSize (id, o) = size := by
  obtain ⟨node, hn, _, hty⟩ := Graph.requireOutput_eq_ok h
  obtain ⟨x, hx, rfl⟩ := Option.map_eq_some_iff.1 hty
  simp [outputSize, hn, hx, hsize]

lemma keeps_assignOutput (hS : ctx.entry = .displacement → ctx.IsBump id → S id) (name : String) :
    Keeps ctx S (ctx.assignOutput id name) := by
  intro held
  refine (leads_ofGraph (fun _ hs => hs.replays) _).bind fun ⟨o, ty⟩ => .of_and fun hout => ?_
  refine .get_bind fun s hs => ?_
  have hfailed : ∀ t, t = s → Failed t := fun t ht => ht ▸ hs.replays
  split
  · exact .pure fun t ht => ht ▸ hs
  rename_i hnew
  refine (leads_slotSize hfailed _ _).bind fun size => .of_and fun hsize => ?_
  have hclaim : Leads (fun s => Tended ctx S held s ∧ s.outputSlots.get? (id, o) = none)
      (claim size) _ Failed := leads_claim (fun _ t => t.get? (id, o) = none) size
  rw [← outputSize_of_requireOutput hout hsize] at hclaim ⊢
  refine .pre (fun t ht => ?_) (hclaim.bind fun slot => (leads_setOutputSlot hS).bind fun _ =>
    .pure fun _ hs => hs)
  subst ht
  exact ⟨hs, hnew⟩

lemma keeps_closureWeight : Keeps ctx S closureWeight := by
  intro held
  refine .get_bind fun s hs => .ite (fun _ => ?_) fun _ => .pure fun t ht => ht ▸ hs
  exact .pre (fun t ht => ht ▸ hs) ((keeps_read _ 1 held).bind fun _ => .pure fun _ hs => hs)

lemma closing_keeps : Closing ctx id fun _ m => Keeps ctx S m where
  toComposes := keeps_composes
  input := keeps_assignInputAt
  weight := keeps_closureWeight
  silent _ := keeps_op _ _ _ _
  bsdf _ _ _ _ := ((Appends.push _).bind (.push _)).keeps

lemma plain_keeps (hS : ctx.entry = .displacement → ctx.IsBump id → S id) :
    Plain ctx id fun _ m => Keeps ctx S m where
  toComposes := keeps_composes
  input := keeps_assignInputAt
  output := keeps_assignOutput hS
  weight := keeps_closureWeight
  single _ := keeps_op _ _ _ _
  data _ := ((Appends.push _).bind (.push _)).keeps

/-! ## Bumps that pass on their normal -/

lemma outputSize_eq (a : NodeId × Nat) :
    ctx.outputSize a = ((ctx.net.sourceType? a).bind SocketType.stackSize?).getD 0 := by
  rw [outputSize, sourceType?, form?]
  cases ctx.net.node? a.1 with
  | none => rfl
  | some node =>
    simp only [Option.map_some, Option.bind_some, Node.form]
    cases node.outputs[a.2]? <;> rfl

section Bumps

variable (hnet : ctx.net.Scripted) {node : Node} {invert useObjectSpace : Bool}
  (hn : ctx.net.node? id = some node) (hk : node.kind = .bump invert useObjectSpace)

include hnet hn hk

/-- What feeds the normal of a bump has the size of a normal. -/
lemma outputSize_of_bump {o : Nat}
    (hi : node.inputIndex? "Normal" = some i) (ho : node.outputIndex? "Normal" = some o)
    (hl : ctx.link? id i = some source) :
    ctx.outputSize source = ctx.outputSize (id, o) := by
  have hkind : ctx.net.kind? id = some (.bump invert useObjectSpace) := by
    rw [kind?_of_node? hn, hk]
  have hform := hnet.form?_of_isJunction hkind rfl
  obtain ⟨t, u, ht, hu, htu⟩ := hnet.fit (feeds_of_inputLink? (link?_eq_some_iff.1 hl).2) hform rfl
  have hnode := hform
  rw [form?_of_node? hn, Option.some.injEq] at hnode
  have hu' : u = .normal := by
    rw [Node.inputIndex?_eq_of_form hnode] at hi
    cases hi
    rw [targetType?, hform] at hu
    exact (Option.some.inj hu).symm
  have ho' : o = 0 := by
    have houts : node.outputs = (Node.ofKind (.bump invert useObjectSpace)).outputs :=
      congrArg Node.Form.outputs hnode
    rw [Node.outputIndex?, houts] at ho
    exact (Option.some.inj ho).symm
  have hsize : ctx.outputSize (id, 0) = 3 := by
    rw [outputSize_eq, sourceType?, hform]
    rfl
  rw [ho', hsize, outputSize_eq, ht, Option.bind_some, SocketType.stackSize?_of_linksTo htu, hu']
  rfl

/-- A bump without strength shares the slots of what feeds it. -/
lemma keeps_shareOutput (hS : ctx.entry = .displacement → ctx.IsBump id → S id)
    (hpass : (!ctx.isLinked id "Strength" && node.float "Strength" == 0 &&
      ctx.isLinked id "Normal") = true) : Keeps ctx S (ctx.shareOutput id "Normal" "Normal") := by
  intro held
  simp only [Bool.and_eq_true, Bool.not_eq_true'] at hpass
  refine (leads_ofGraph (fun _ hs => hs.replays) _).bind fun ⟨o, ty⟩ => .of_and fun hout => ?_
  refine .get_bind fun s hs => ?_
  have hfailed : ∀ t, t = s → Failed t := fun t ht => ht ▸ hs.replays
  refine .ite (fun _ => .pure fun t ht => ht ▸ hs) fun hnew => ?_
  refine (leads_ofGraph hfailed _).bind fun ⟨i, _⟩ => .of_and fun hin => ?_
  refine .get_bind fun s' hs' => ?_
  subst hs'
  split
  · exact .throw hfailed
  rename_i slot hslot
  obtain ⟨source, hl, hget⟩ := Option.bind_eq_some_iff.1 hslot
  refine (leads_slotSize hfailed _ _).bind fun size => .of_and fun hsize => ?_
  obtain ⟨_, hn', hi, _⟩ := Graph.requireInput_eq_ok hin
  obtain ⟨_, hn'', ho, _⟩ := Graph.requireOutput_eq_ok hout
  obtain rfl := Option.some.inj (hn.symm.trans hn')
  obtain rfl := Option.some.inj (hn.symm.trans hn'')
  have hself := outputSize_of_requireOutput hout hsize
  have hsame := (outputSize_of_bump hnet hn hk hi ho hl).trans hself
  have hshares : ctx.Shares (id, o) source :=
    ⟨node, invert, useObjectSpace, i, hn, hk, hpass.1.1, hpass.1.2, ho, hi, hl⟩
  have hread : Leads (fun t => Tended ctx S held t ∧ t.outputSlots.get? source = some slot ∧
      t.outputSlots.get? (id, o) = none) (read slot size) _ Failed :=
    leads_read (fun _ t => t.get? source = some slot ∧ t.get? (id, o) = none) slot size
  refine .pre (fun t ht => ?_) (hread.bind fun _ t ht => ?_)
  · subst ht
    exact ⟨hs, hget, Option.not_isSome_iff_eq_none.1 hnew⟩
  obtain ⟨ht, hsource, hfresh⟩ := ht
  have hmem : (some source, (slot, size)) ∈ ctx.holders held t := by
    refine mem_append_left _ (mem_map.2 ⟨_, mem_of_get? hsource, ?_⟩)
    rw [outputRange, hsame]
  have hledger := ht.ledger.share hmem (i := some (id, o)) ⟨source, .single hshares, .refl⟩ (by
    rintro (_ | b) h
    · exact h.elim
    · obtain ⟨c, hc, hb⟩ := h
      exact ⟨c, .head hshares hc, hb⟩)
  refine ⟨⟨ht.outputs.insert _ _, ht.inputs, ?_⟩, fun hd e he hb => ?_⟩
  · dsimp only [holders, SlotTable.insert]
    rw [erase_of_get?_eq_none hfresh, map_cons, outputRange, hself]
    exact hledger
  · obtain rfl | ⟨he, _⟩ := mem_insert.1 he
    · exact hS hd hb
    · exact ht.bumps hd e he hb

end Bumps

/-! ## Nodes -/

section Node

variable (h : Plain ctx id fun _ m => Keeps ctx S m)

include h

lemma keeps_emitAttribute (name : String) : Keeps ctx S (ctx.emitAttribute id name) := by
  refine h.bind (keeps_attributeWord _) fun word => h.bind (h.forIn (fun x _ _ => ?_) _) fun _ =>
    h.pure _
  obtain ⟨output, width⟩ := x
  exact h.ite (fun _ => h.bind (h.output _) fun _ => h.bind (keeps_op _ _ _ _) fun _ => h.pure _)
    fun _ => h.pure _

lemma keeps_emitTextureCoordinate (transform : Option Transform) :
    Keeps ctx S (ctx.emitTextureCoordinate id transform) := by
  unfold emitTextureCoordinate
  refine h.optional (h.output _) (fun _ _ => (appends_emitGenerated ctx _).keeps) fun _ => ?_
  refine h.optional (h.output _) (fun _ _ => keeps_op _ _ _ _) fun _ => ?_
  refine h.optional (h.output _) (fun _ _ => (appends_emitAttributeRead _ _).keeps) fun _ => ?_
  exact h.ite (fun _ => h.bind (h.output _) fun slot => (appends_object transform slot).keeps)
    fun _ => h.pure _

/-- What is held for a coordinate that was taken for the occasion. -/
def coordinateRange (coordinate : Nat × Bool) : List SlotRange :=
  if coordinate.2 then [(coordinate.1, 3)] else []

lemma leads_assignCoordinate {fallback : Nat → Emit Unit}
    (hf : ∀ slot, Appends (fallback slot) (Query · slot 3)) :
    Leads (Tended ctx S held) (ctx.assignCoordinate id fallback)
      (fun c => Tended ctx S (coordinateRange c ++ held)) Failed := by
  refine .ite (fun _ => (h.assignInput "Vector" held).bind fun slot => .pure fun _ hs => hs)
    fun _ => ?_
  have hclaim : Leads (fun s => Tended ctx S held s ∧ True) (claim 3) _ Failed :=
    leads_claim (fun _ _ => True) 3
  refine .pre (fun _ hs => ⟨hs, trivial⟩) (hclaim.bind fun slot => ?_)
  exact .pre (fun _ hs => hs.1) (((hf slot).keeps _).bind fun _ => .pure fun _ hs => hs)

omit h in
lemma leads_releaseCoordinate (c : Nat × Bool) :
    Leads (Tended ctx S (coordinateRange c ++ held)) (releaseCoordinate c)
      (fun _ => Tended ctx S held) Failed := by
  obtain ⟨slot, taken⟩ := c
  cases taken with
  | true => exact leads_release slot 3
  | false => exact .pure fun _ hs => hs

lemma keeps_emitImage (slot : UInt32) (colorspace : String) :
    Keeps ctx S (ctx.emitImage id slot colorspace) := by
  intro held
  refine (leads_assignCoordinate h (appends_emitAttributeRead _)).bind fun c => ?_
  refine (h.assignOutputIfLinked _ _).bind fun _ => (h.assignOutputIfLinked _ _).bind fun _ => ?_
  exact (h.pack _ _ _ _ _).bind fun _ => (keeps_op _ _ _ _ _).bind fun _ =>
    leads_releaseCoordinate c

lemma keeps_emitChecker : Keeps ctx S (ctx.emitChecker id) := by
  intro held
  refine (leads_assignCoordinate h (appends_emitGenerated ctx)).bind fun c => ?_
  refine (h.assignInput _ _).bind fun _ => (h.assignInput _ _).bind fun _ =>
    (h.assignInput _ _).bind fun _ => (h.assignOutputIfLinked _ _).bind fun _ =>
      (h.assignOutputIfLinked _ _).bind fun _ => ?_
  exact (h.pack _ _ _ _ _).bind fun _ => (h.pack _ _ _ _ _).bind fun _ =>
    (keeps_op _ _ _ _ _).bind fun _ => leads_releaseCoordinate c

omit h in
lemma keeps_emitNode (hS : ctx.entry = .displacement → ctx.IsBump id → S id)
    (hnet : ctx.net.Scripted) {node : Node} (hn : ctx.net.node? id = some node) :
    Keeps ctx S (ctx.emitNode id node) := by
  have h : Plain ctx id fun _ m => Keeps ctx S m := plain_keeps hS
  refine h.emitNode ?_ ?_ ?_ ?_ ?_
  · exact fun name _ => keeps_emitAttribute h name
  · exact fun _ transform _ => keeps_emitTextureCoordinate h transform
  · exact fun slot _ colorspace _ => keeps_emitImage h slot colorspace
  · exact fun _ => keeps_emitChecker h
  · exact fun invert useObjectSpace hk =>
      h.emitBump (keeps_shareOutput hnet hn hk hS) invert useObjectSpace

end Node

/-! ## Giving slots back -/

/-- Displacement ignores what bumps feed. -/
lemma skips_iff : ctx.skips id i = true ↔ ctx.entry = .displacement ∧
    ∃ source, ctx.net.inputLink? id i = some source ∧ ctx.IsBump source.1 := by
  rw [skips, Bool.and_eq_true, beq_iff_eq]
  refine and_congr_right fun _ => ?_
  cases ctx.net.inputLink? id i with
  | none => simp
  | some source =>
    simp only [Option.bind_some, Option.some.injEq, exists_eq_left', IsBump, kind?]
    cases ctx.net.node? source.1 with
    | none => simp
    | some node => simp

section Clear

variable (hnet : ctx.net.Scripted)
  (hfeed : ctx.entry = .displacement → ∀ i source, ctx.net.inputLink? id i = some source →
    ctx.IsBump source.1 → ¬ S source.1)

include hnet hfeed

/-- The inputs that are forgotten with an output have a link that counts, so none of them owns
slots. -/
lemma isLoaded_of_mem_outputLinks {slot : Nat} (hs : Tended ctx S held s)
    (hl : ctx.net.inputLink? id i = some source)
    (hget : s.outputSlots.get? source = some slot)
    {c : NodeId × Nat} (hc : c ∈ ctx.net.outputLinks source.1 source.2) (slot' : Nat) :
    ctx.isLoaded (c, slot') = false := by
  have hlink : ctx.net.inputLink? c.1 c.2 = some source :=
    hnet.tidy.inputLink?_eq_some_iff.2 (mem_outputLinks.1 hc)
  have hskip : ctx.skips c.1 c.2 = false := by
    rw [← Bool.not_eq_true, skips_iff]
    rintro ⟨hd, source', hl', hb⟩
    rw [hlink] at hl'
    cases hl'
    exact hfeed hd i source hl hb (hs.bumps hd _ (mem_of_get? hget) hb)
  simp [isLoaded, link?, hskip, hlink]

lemma keeps_clearUser (i : Nat) : Keeps ctx S (ctx.clearUser id i) := by
  intro held
  unfold clearUser
  dsimp only
  split
  · exact .pure fun _ hs => hs
  rename_i source hl
  refine .get_bind fun s hs => ?_
  split
  · exact .pure fun t ht => ht ▸ hs
  rename_i slot hget
  refine .ite (fun _ => ?_) fun _ => .pure fun t ht => ht ▸ hs
  rintro s rfl
  have hloaded := fun c hc => isLoaded_of_mem_outputLinks hnet hfeed hs hl hget (c := c) hc
  refine ⟨⟨hs.outputs.sublist erase_sublist,
    hs.inputs.sublist (foldl_erase_sublist _), ?_⟩,
    fun hd e he hb => hs.bumps hd e (mem_erase.1 he).1 hb⟩
  have hperm : (ctx.holders held s).Perm ((some source, (slot, ctx.outputSize source)) ::
      ctx.holders held { s with outputSlots := s.outputSlots.erase source }) :=
    ((hs.outputs.perm_cons_erase hget).map _).append_right _
  have hledger := (hs.ledger.perm hperm).release s.code.size
  dsimp only [holders] at hledger ⊢
  rw [filter_foldl_erase hloaded]
  exact hledger

lemma keeps_clearUsers : Keeps ctx S (ctx.clearUsers id) := by
  unfold clearUsers
  split
  · exact keeps_composes.pure _
  · exact fun held => .forM fun i _ => keeps_clearUser hnet hfeed i held

omit hnet hfeed in
lemma keeps_clearConstant {socket : Input} (hi : ctx.net.input? id i = some socket) :
    Keeps ctx S (ctx.clearConstant id i socket) := by
  intro held
  refine .ite (fun _ => .pure fun _ hs => hs) fun hl => .get_bind fun s hs => ?_
  split
  · exact .pure fun t ht => ht ▸ hs
  rename_i slot hget
  rintro s rfl
  refine ⟨⟨hs.outputs, hs.inputs.sublist erase_sublist, ?_⟩, hs.bumps⟩
  have hloaded : ctx.isLoaded ((id, i), slot) = true := by
    simpa [isLoaded] using hl
  have hperm : (ctx.holders held s).Perm ((none, (slot, ctx.inputSize (id, i))) ::
      ctx.holders held { s with inputSlots := s.inputSlots.erase (id, i) }) := by
    have hfilter := (hs.inputs.perm_cons_erase hget).filter ctx.isLoaded
    rw [filter_cons_of_pos hloaded] at hfilter
    exact (((hfilter.map _).append_right _).append_left _).trans perm_middle
  have hsize : ctx.inputSize (id, i) = socket.ty.stackSize?.getD 0 := by simp [inputSize, hi]
  have hledger := (hs.ledger.perm hperm).release s.code.size
  rw [hsize] at hledger
  exact hledger

omit hnet hfeed in
lemma keeps_clearConstants : Keeps ctx S (ctx.clearConstants id) := by
  unfold clearConstants
  split
  · exact keeps_composes.pure _
  · rename_i node hn
    refine fun held => .forM fun x hx => keeps_clearConstant ?_ held
    have hx := mem_zipIdx_iff_getElem?.1 hx
    simpa [input?, hn] using hx

end Clear

/-- Emitting a node keeps the ledger.  If bumps are ignored, only those in `S` may get slots, and
none of them may feed the node. -/
theorem keeps_generateNode (hnet : ctx.net.Scripted)
    (hS : ctx.entry = .displacement → ctx.IsBump id → S id)
    (hfeed : ctx.entry = .displacement → ∀ i source, ctx.net.inputLink? id i = some source →
      ctx.IsBump source.1 → ¬ S source.1) : Keeps ctx S (ctx.generateNode id) := by
  refine keeps_composes.bind (keeps_setPhase _) fun _ held => ?_
  refine (leads_ofGraph (fun _ hs => hs.replays) _).bind fun node => .of_and fun hn => ?_
  refine (keeps_emitNode hS hnet (Graph.require_eq_ok_iff.1 hn) held).bind fun _ => ?_
  refine (keeps_clearUsers hnet hfeed held).bind fun _ =>
    (keeps_clearConstants held).bind fun _ => ?_
  refine (keeps_modifyFlags _ held).bind fun _ => Triple.bind ?_ fun _ => keeps_markDone id held
  exact .modify fun s hs => hs.congr rfl rfl rfl

end Shading
