import Shading.Proofs.Decoding
import Shading.Proofs.Ownership

/-!
# How far operands reach

The peak of a section is one above the highest slot that was ever taken, so what instructions read
and write should lie below it.  `Bounded` says this of the slots that the construction remembers,
and `Yields` of a step: it appends structured code whose operands lie below the peak, and what it
returns lies below the peak as well.

A script writes every output under the slot of the first output with the same name.  If that is a
number, a vector behind it is written over its end (`Graph.Unshadowed`).
-/

namespace Shading

open Emit SectionContext Machine Network SlotTable Option SlotRange

variable {data : List Instruction} {o : Opcode} {ty : SocketType} {i : Instruction}

/-! ## Runs below a bound -/

/-- The run has the invalid offset, or it has slots and ends at or before `p`. -/
def SlotRange.Below (p : Nat) (r : SlotRange) : Prop :=
  r.1 = Stack.invalid ∨ 0 < r.2 ∧ r.1 + r.2 ≤ p

/-- All of the runs are below `p`. -/
def Inside (p : Nat) (l : List SlotRange) : Prop := ∀ r ∈ l, r.Below p

variable {p p' slot m n : Nat} {r : SlotRange} {l l' : List SlotRange}

lemma SlotRange.Below.mono (h : r.Below p) (hp : p ≤ p') : r.Below p' := by
  unfold Below at *
  omega

lemma SlotRange.below_invalid (p n : Nat) : Below p (Stack.invalid, n) := .inl rfl

/-- A run with fewer slots.  A value without slots has the invalid offset. -/
lemma SlotRange.Below.shrink (h : Below p (slot, n)) (hm : n = 0 ∨ 0 < m ∧ m ≤ n) :
    Below p (slot, m) := by
  unfold Below at *
  omega

@[simp] lemma inside_nil : Inside p [] := fun _ h => absurd h List.not_mem_nil

@[simp] lemma inside_cons : Inside p (r :: l) ↔ r.Below p ∧ Inside p l := List.forall_mem_cons

@[simp] lemma inside_append : Inside p (l ++ l') ↔ Inside p l ∧ Inside p l' :=
  List.forall_mem_append

@[simp] lemma inside_slots : Inside p (slots slot n) ↔ Below p (slot, n) := by
  unfold slots
  split
  · simpa using .inl ‹_›
  · simp

lemma Inside.mono (h : Inside p l) (hp : p ≤ p') : Inside p' l := fun r hr => (h r hr).mono hp

/-- A slot below the peak is its own operand. -/
lemma SlotRange.Below.word (hp : p ≤ Stack.size) (h : Below p (slot, n)) :
    Below p (offset (slotWord slot), n) := by
  have hle : slot ≤ 255 := by
    unfold Below Stack.size Stack.invalid at *
    omega
  rwa [offset_slotWord hle]

/-! ## States -/

variable {ctx : SectionContext} {id : NodeId} {s s' s'' : SectionState} {α β : Type} {name : String}
  {m : Emit PUnit} {x : Except GraphError α}

/-- The slots that the construction remembers are below the peak, and the peak is inside the
stack. -/
structure Bounded (ctx : SectionContext) (s : SectionState) : Prop where
  peak : s.stack.peak ≤ Stack.size
  outputs : ∀ e ∈ s.outputSlots, (ctx.outputRange e).Below s.stack.peak
  inputs : ∀ e ∈ s.inputSlots, ctx.isLoaded e = true → (ctx.inputRange e).Below s.stack.peak
  weight : Below s.stack.peak (s.mixWeight, 1)

/-- Whether a node is a script with a vector behind a number of the same name that feeds
something. -/
def Graph.hidesVector (g : Graph) (id : NodeId) (node : Node) : Bool :=
  node.kind.isScript && node.outputs.any fun x => x.ty.isVec3 &&
    (node.outputIndex? x.name).any fun o => g.net.isOutputLinked id o &&
      (node.outputs[o]?).any fun y => y.ty.stackSize? == some 1

/-- No script hides a vector. -/
def Graph.Unshadowed (g : Graph) : Prop :=
  ∀ id ∈ g.net.ids, (g.net.node? id).any (g.hidesVector id) = false

instance (g : Graph) : Decidable g.Unshadowed :=
  inferInstanceAs (Decidable (∀ id ∈ g.net.ids, _ = false))

/-- The instruction writes a zero vector, as scripts do for their vectors. -/
def Machine.WritesZero (data : List Instruction) (o : Opcode) : Prop :=
  o = .valueV ∧ data = [.vec3 Vec3.zero]

/-- What is known of an instruction: the bump section has no jumps, and the operands are below `p`,
unless the instruction may be that of a script with a hidden vector. -/
def SectionContext.Operands (ctx : SectionContext) (p : Nat) (i : Instruction)
    (data : List Instruction) (o : Opcode) : Prop :=
  (o.isJump = true → ctx.entry ≠ .bump) ∧
    ((WritesZero data o → ctx.graph.Unshadowed) → Inside p (ranges i data o))

lemma SectionContext.Operands.mono
    (h : ctx.Operands p i data o) (hp : p ≤ p') : ctx.Operands p' i data o :=
  ⟨h.1, fun hv => (h.2 hv).mono hp⟩

/-- Structured code was appended, with operands below the peak. -/
structure Lays (ctx : SectionContext) (s s' : SectionState) : Prop where
  bounded : Bounded ctx s'
  peak_le : s.stack.peak ≤ s'.stack.peak
  code : ∃ words, s'.code.toList = s.code.toList ++ words ∧
    Structured (ctx.Operands s'.stack.peak) words

lemma Bounded.lays (h : Bounded ctx s) : Lays ctx s s := ⟨h, le_rfl, [], by simp, .nil⟩

lemma Lays.trans (h : Lays ctx s s') (h' : Lays ctx s' s'') : Lays ctx s s'' := by
  obtain ⟨words, hcode, hwords⟩ := h.code
  obtain ⟨words', hcode', hwords'⟩ := h'.code
  refine ⟨h'.bounded, h.peak_le.trans h'.peak_le, words ++ words', ?_, ?_⟩
  · rw [hcode', hcode, List.append_assoc]
  · exact (hwords.mono fun _ _ _ hP => hP.mono h'.peak_le).append hwords'

/-- Nothing was appended and no slot was taken; slots may have been forgotten. -/
structure Calm (s s' : SectionState) : Prop where
  code : s'.code = s.code
  peak : s'.stack.peak = s.stack.peak
  outputs : s'.outputSlots ⊆ s.outputSlots
  inputs : s'.inputSlots ⊆ s.inputSlots
  weight : s'.mixWeight = s.mixWeight ∨ s'.mixWeight = Stack.invalid

lemma Calm.of_eq (hpeak : s'.stack.peak = s.stack.peak := by rfl)
    (hcode : s'.code = s.code := by rfl) (hout : s'.outputSlots = s.outputSlots := by rfl)
    (hin : s'.inputSlots = s.inputSlots := by rfl)
    (hweight : s'.mixWeight = s.mixWeight := by rfl) : Calm s s' :=
  ⟨hcode, hpeak, hout ▸ List.Subset.refl _, hin ▸ List.Subset.refl _, .inl hweight⟩

lemma Calm.lays (h : Calm s s') (hs : Bounded ctx s) : Lays ctx s s' := by
  refine ⟨⟨h.peak ▸ hs.peak, fun e he => ?_, fun e he hl => ?_, ?_⟩, h.peak.ge, [], ?_, .nil⟩
  · rw [h.peak]
    exact hs.outputs e (h.outputs he)
  · rw [h.peak]
    exact hs.inputs e (h.inputs he) hl
  · obtain hw | hw := h.weight
    · rw [h.peak, hw]
      exact hs.weight
    · exact .inl hw
  · rw [h.code, List.append_nil]

/-! ## Steps -/

/-- The peak is inside the stack. -/
def Contained (s : SectionState) : Prop := s.stack.peak ≤ Stack.size

lemma Leads.ofGraph_bind {P E : SectionState → Prop} {R : β → SectionState → Prop}
    {f : α → Emit β} (hE : ∀ s, P s → E s)
    (h : ∀ a, x = .ok a → Leads P (f a) R E) : Leads P (ofGraph x >>= f) R E := by
  cases x with
  | ok a => exact h a rfl
  | error e => exact .throw hE

/-- Where the runs `l` are below the peak, the step appends structured code with operands below the
peak, and then the runs `Q` of its result are below the peak.  If it fails, the peak is still inside
the stack. -/
def Yields (ctx : SectionContext) (l : List SlotRange) (m : Emit α) (Q : α → List SlotRange) :
    Prop :=
  ∀ s, Bounded ctx s → Inside s.stack.peak l →
    Leads (· = s) m (fun a t => Lays ctx s t ∧ Inside t.stack.peak (Q a)) Contained

namespace Yields

variable {m m' : Emit α} {f : α → Emit β} {Q Q' : α → List SlotRange} {R : β → List SlotRange}

lemma pure {a : α} (h : ∀ p, Inside p l → Inside p (Q a)) : Yields ctx l (Pure.pure a) Q := by
  intro s hs hl
  refine .pure ?_
  rintro _ rfl
  exact ⟨hs.lays, h _ hl⟩

lemma throw (e : BytecodeError) : Yields ctx l (MonadExcept.throw e) Q := by
  intro s hs _
  refine .throw ?_
  rintro _ rfl
  exact hs.peak

lemma bind (hm : Yields ctx l m Q) (hf : ∀ a, Yields ctx (Q a ++ l) (f a) R) :
    Yields ctx l (m >>= f) R := by
  intro s hs hl
  refine (hm s hs hl).bind fun a t ht => ?_
  obtain ⟨hst, hQ⟩ := ht
  have hl' := hl.mono hst.peak_le
  have hstep : Leads (· = t) (f a) _ Contained := hf a t hst.bounded (inside_append.2 ⟨hQ, hl'⟩)
  exact hstep.post (fun b u hu => ⟨hst.trans hu.1, hu.2⟩) t rfl

lemma post (hm : Yields ctx l m Q) (h : ∀ a p, Inside p (Q a) → Inside p (Q' a)) :
    Yields ctx l m Q' :=
  fun s hs hl => (hm s hs hl).post fun a _ ht => ⟨ht.1, h a _ ht.2⟩

lemma weaken (hm : Yields ctx l m Q) (h : l ⊆ l') : Yields ctx l' m Q :=
  fun s hs hl => hm s hs fun r hr => hl r (h hr)

lemma ite {c : Prop} [Decidable c] (ht : c → Yields ctx l m Q) (hf : ¬ c → Yields ctx l m' Q) :
    Yields ctx l (if c then m else m') Q := by
  split
  · exact ht ‹_›
  · exact hf ‹_›

/-- Looking at the state; `l'` is what it tells about slots. -/
lemma get_bind {f : SectionState → Emit β}
    (h : ∀ s, Bounded ctx s → ∃ l', Inside s.stack.peak l' ∧ Yields ctx (l' ++ l) (f s) R) :
    Yields ctx l (get >>= f) R := by
  intro s hs hl
  refine .get_bind ?_
  rintro _ rfl
  obtain ⟨l', hl', hf⟩ := h _ hs
  exact hf _ hs (inside_append.2 ⟨hl', hl⟩)

lemma calm {f : SectionState → SectionState} (h : ∀ s, Calm s (f s)) :
    Yields ctx l (modify f) fun _ => [] := by
  intro s hs _
  refine .modify ?_
  rintro _ rfl
  exact ⟨(h _).lays hs, inside_nil⟩

lemma ofGraph_bind (h : ∀ a, x = .ok a → Yields ctx l (f a) R) :
    Yields ctx l (ofGraph x >>= f) R := by
  intro s hs hl
  refine .ofGraph_bind (fun t ht => ?_) fun a ha => h a ha s hs hl
  exact ht ▸ hs.peak

lemma slotSize_bind {socket : String} {f : Nat → Emit β}
    (h : ∀ size, ty.stackSize? = some size → Yields ctx l (f size) R) :
    Yields ctx l (slotSize id socket ty >>= f) R := by
  unfold slotSize
  split
  · exact h _ ‹_›
  · exact throw _

lemma pack_bind {x y z w : Nat} {f : Int32 → Emit β}
    (h : ∀ word, byte word 0 = x ∧ byte word 1 = y ∧ byte word 2 = z ∧
      byte word 3 = w → Yields ctx l (f word) R) : Yields ctx l (pack x y z w >>= f) R := by
  unfold pack
  split
  · exact h _ (byte_pack? ‹_›)
  · exact throw _

/-- What has been appended since a state. -/
lemma leads_since (hm : Yields ctx l m Q) (s : SectionState) :
    Leads (fun t => Lays ctx s t ∧ Inside t.stack.peak l) m
      (fun a t => Lays ctx s t ∧ Inside t.stack.peak (Q a ++ l)) Contained := by
  rintro t ⟨ht, hl⟩
  refine (hm t ht.bounded hl).post (fun a u hu => ⟨ht.trans hu.1, ?_⟩) t rfl
  exact inside_append.2 ⟨hu.2, hl.mono hu.1.peak_le⟩

/-- A step that needs no slots can be repeated. -/
lemma leads (hm : Yields ctx [] m Q) (s : SectionState) :
    Leads (Lays ctx s) m (fun _ => Lays ctx s) Contained :=
  .pre (fun _ ht => ⟨ht, inside_nil⟩) ((hm.leads_since s).post fun _ _ ht => ht.1)

lemma of_leads (h : ∀ s, Leads (Lays ctx s) m (fun _ => Lays ctx s) Contained) :
    Yields ctx l m fun _ => [] := by
  intro s hs _
  refine .pre ?_ ((h s).post fun _ _ ht => ⟨ht, inside_nil⟩)
  rintro _ rfl
  exact hs.lays

lemma forIn {f : α → β → Emit (ForInStep β)} {xs : List α}
    (h : ∀ a ∈ xs, ∀ b, Yields ctx [] (f a b) fun _ => []) (b : β) :
    Yields ctx l (ForIn.forIn xs b f) fun _ => [] :=
  of_leads fun s => .forIn (fun a ha b => (h a ha b).leads s) b

end Yields

/-! ## Elementary steps -/

/-- Taking slots keeps the peak inside the stack, and they are below it. -/
lemma Stack.peak_of_claim {stack stack' : Stack} {size position : Nat}
    (h : stack.claim size position = .ok (slot, stack')) (hp : stack.peak ≤ Stack.size) :
    stack.peak ≤ stack'.peak ∧ stack'.peak ≤ Stack.size ∧ Below stack'.peak (slot, size) := by
  rw [Stack.claim] at h
  split at h
  · cases h
    exact ⟨le_rfl, hp, .inl rfl⟩
  · rename_i hsize
    split at h
    · rename_i offset hfit
      have hpos := Nat.pos_of_ne_zero hsize
      have hfits := ((Stack.firstFit?_eq_some_iff hpos).1 hfit).1
      cases h
      exact ⟨le_max_left .., max_le hp hfits.1, .inr ⟨hpos, le_max_right ..⟩⟩
    · cases h

lemma yields_claim (size : Nat) : Yields ctx l (claim size) fun slot => [(slot, size)] := by
  intro s hs hl
  refine .get_bind ?_
  rintro s rfl
  cases hc : s.stack.claim size s.code.size with
  | error e => exact Yields.throw _ s hs hl
  | ok r =>
    obtain ⟨slot, stack⟩ := r
    obtain ⟨hle, hin, hslot⟩ := Stack.peak_of_claim hc hs.peak
    rintro _ rfl
    refine ⟨⟨⟨hin, fun e he => (hs.outputs e he).mono hle, fun e he hl => ?_, ?_⟩, hle, [], ?_,
      .nil⟩, inside_cons.2 ⟨hslot, inside_nil⟩⟩
    · exact (hs.inputs e he hl).mono hle
    · exact hs.weight.mono hle
    · rw [List.append_nil]

lemma yields_read (offset size : Nat) : Yields ctx l (read offset size) fun _ => [] := by
  intro s hs hl
  refine .get_bind ?_
  rintro s rfl
  cases hr : s.stack.read offset size s.code.size with
  | error e => exact Yields.throw _ s hs hl
  | ok stack =>
    have hpeak : stack.peak = s.stack.peak := by
      rw [Stack.read] at hr
      split at hr <;> cases hr
      rfl
    have hcalm : Calm s { s with stack } := .of_eq hpeak
    rintro _ rfl
    exact ⟨hcalm.lays hs, inside_nil⟩

lemma Stack.peak_release (stack : Stack) (offset size position : Nat) :
    (stack.release offset size position).peak = stack.peak := by
  rw [Stack.release]
  split <;> rfl

lemma yields_release (offset size : Nat) : Yields ctx l (release offset size) fun _ => [] :=
  .calm fun _ => .of_eq (Stack.peak_release ..)

lemma yields_setPhase (phase : Phase) : Yields ctx l (setPhase phase) fun _ => [] :=
  .calm fun _ => .of_eq

lemma yields_setOutputSlot {o : Nat} (h : (slot, ctx.outputSize (id, o)) ∈ l) :
    Yields ctx l (setOutputSlot id o slot) fun _ => [] := by
  intro s hs hl
  refine .modify ?_
  rintro _ rfl
  refine ⟨⟨⟨hs.peak, fun e he => ?_, hs.inputs, hs.weight⟩, le_rfl, [], by simp, .nil⟩, inside_nil⟩
  obtain rfl | ⟨he, _⟩ := mem_insert.1 he
  · exact hl _ h
  · exact hs.outputs e he

/-- Remembering the slot of an input; where a linked input reads does not matter. -/
lemma yields_setInputSlot {i : Nat}
    (h : ctx.link? id i = none → (slot, ctx.inputSize (id, i)) ∈ l) :
    Yields ctx l (setInputSlot id i slot) fun _ => [] := by
  intro s hs hl
  refine .modify ?_
  rintro _ rfl
  refine ⟨⟨⟨hs.peak, hs.outputs, fun e he hload => ?_, hs.weight⟩, le_rfl, [], by simp, .nil⟩,
    inside_nil⟩
  obtain rfl | ⟨he, _⟩ := mem_insert.1 he
  · exact hl _ (h (by simpa [isLoaded] using hload))
  · exact hs.inputs e he hload

lemma Emit.Appends.yields_structured {form : List Instruction → Prop}
    (h : Appends m form) (hform : ∀ words p, form words → p ≤ Stack.size → Inside p l →
      Structured (ctx.Operands p) words) : Yields ctx l m fun _ => [] := by
  rintro s hs hl s rfl
  obtain ⟨words, code, ids, hwords, hcode, hm⟩ := h s
  rw [hm]
  exact ⟨⟨⟨hs.peak, hs.outputs, hs.inputs, hs.weight⟩, le_rfl, words, hcode,
    hform words _ hwords hs.peak hl⟩, inside_nil⟩

/-- An opcode that is neither a jump nor the end of a section. -/
def Opcode.isInner (o : Opcode) : Bool := !o.isJump && o != .stop

lemma Opcode.isInner_iff : o.isInner = true ↔ o.isJump = false ∧ o ≠ .stop := by
  simp [isInner]

lemma structured_op {a b c : Int32} (ho : o.isInner = true)
    (hw : data.length + 1 = width (.op o a b c) o)
    (hin : (WritesZero data o → ctx.graph.Unshadowed) → Inside p (ranges (.op o a b c) data o)) :
    Structured (ctx.Operands p) (.op o a b c :: data) := by
  obtain ⟨hjump, hstop⟩ := Opcode.isInner_iff.1 ho
  refine .single hjump hstop hw ⟨fun hj => ?_, hin⟩
  rw [hjump] at hj
  cases hj

lemma Emit.Appends.yields {a b c : Int32}
    (h : Appends m (· = .op o a b c :: data)) (ho : o.isInner = true)
    (hw : data.length + 1 = width (.op o a b c) o)
    (hin : ∀ p, p ≤ Stack.size → Inside p l → Inside p (ranges (.op o a b c) data o)) :
    Yields ctx l m fun _ => [] := by
  refine h.yields_structured ?_
  rintro _ p rfl hp hl
  exact structured_op ho hw fun _ => hin p hp hl

lemma yields_op {a b c : Int32} (ho : o.isInner = true) (hw : 1 = width (.op o a b c) o)
    (hin : ∀ p, p ≤ Stack.size → Inside p l → Inside p (ranges (.op o a b c) [] o)) :
    Yields ctx l (op o a b c) fun _ => [] :=
  (Appends.push _).yields ho hw hin

/-! ## Inputs and outputs -/

/-- The number of slots where the value of an input stands: its own if nothing is linked to it. -/
def SectionContext.heldSize (ctx : SectionContext) (id : NodeId) (i : Nat) : Nat :=
  (ctx.link? id i).elim (ctx.inputSize (id, i)) ctx.outputSize

/-- Constants are loaded into all of their slots. -/
lemma yields_loadConstant {socket : Input} (hsize : socket.ty.stackSize? = some n)
    (hn : n ≠ 0) (h : (slot, n) ∈ l) :
    Yields ctx l (loadConstant slot socket.value socket.ty) fun _ => [] := by
  refine appends_loadConstant.yields_structured ?_
  rintro _ p rfl hp hl
  have hword : Below p (offset (Int32.ofNat slot), n) := (hl _ h).word hp
  obtain ⟨_, rfl, hw⟩ | ⟨_, rfl, hw⟩ := constantWords_cases slot hsize (Nat.pos_of_ne_zero hn) <;>
    exact hw ▸ structured_op rfl rfl fun _ => by simpa [ranges, access, Instruction.op] using hword

lemma yields_assignInputAt (i : Nat) :
    Yields ctx l (ctx.assignInputAt id i) fun slot => [(slot, ctx.heldSize id i)] := by
  unfold assignInputAt
  cases hx : ctx.net.input? id i with
  | none => exact .throw _
  | some socket =>
    refine .slotSize_bind fun size hsize => .ite (fun _ => ?_) fun hpos => ?_
    · exact .pure fun p _ => by simpa using below_invalid p _
    have hin : ctx.inputSize (id, i) = size := by simp [inputSize, hx, hsize]
    cases hl : ctx.link? id i with
    | some source =>
      have hheld : ctx.heldSize id i = ctx.outputSize source := by
        rw [heldSize, hl, elim_some]
      rw [hheld]
      have hread : Yields ctx l (readLink id socket.name size source)
          fun slot => [(slot, ctx.outputSize source)] := by
        refine .get_bind fun s hs => ?_
        cases hget : s.outputSlots.get? source with
        | none => exact ⟨[], inside_nil, .throw _⟩
        | some slot =>
          have hslot : Below _ (slot, ctx.outputSize source) := hs.outputs _ (mem_of_get? hget)
          refine ⟨[(slot, ctx.outputSize source)], by simpa using hslot, ?_⟩
          exact (yields_read _ _).bind fun _ => .pure fun p hp => by simp_all
      refine hread.bind fun slot => ?_
      refine (yields_setInputSlot fun hnone => ?_).bind fun _ => .pure fun p hp => by simp_all
      rw [hl] at hnone
      cases hnone
    | none =>
      have hheld : ctx.heldSize id i = size := by rw [heldSize, hl, elim_none, hin]
      rw [hheld]
      refine .get_bind fun s hs => ?_
      cases hget : s.inputSlots.get? (id, i) with
      | some slot =>
        have hslot := hs.inputs _ (mem_of_get? hget) (by simp [isLoaded, hl])
        refine ⟨[(slot, size)], ?_, .pure fun p hp => by simp_all⟩
        simpa [inputRange, hin] using hslot
      | none =>
        refine ⟨[], inside_nil, (yields_claim size).bind fun slot => ?_⟩
        refine (yields_loadConstant hsize hpos (by simp)).bind fun _ => ?_
        refine (yields_setInputSlot fun _ => ?_).bind fun _ => .pure fun p hp => by simp_all
        rw [hin]
        simp

lemma yields_assignOutput (size : Nat)
    (h : ∀ o ty, ctx.graph.requireOutput id name = .ok (o, ty) →
      ctx.outputSize (id, o) = 0 ∨ 0 < size ∧ size ≤ ctx.outputSize (id, o)) :
    Yields ctx l (ctx.assignOutput id name) fun slot => [(slot, size)] := by
  refine .ofGraph_bind fun r hr => ?_
  obtain ⟨o, ty⟩ := r
  have hshrink : ∀ {slot p}, Below p (slot, ctx.outputSize (id, o)) →
      Below p (slot, size) := fun hb => hb.shrink (h o ty hr)
  refine .get_bind fun s hs => ?_
  cases hget : s.outputSlots.get? (id, o) with
  | some slot =>
    have hslot : Below _ (slot, ctx.outputSize (id, o)) := hs.outputs _ (mem_of_get? hget)
    refine ⟨[(slot, ctx.outputSize (id, o))], by simpa using hslot, .pure fun p hp => ?_⟩
    simpa using hshrink (inside_cons.1 hp).1
  | none =>
    refine ⟨[], inside_nil, .slotSize_bind fun n hn => (yields_claim n).bind fun slot => ?_⟩
    rw [← outputSize_of_requireOutput hr hn]
    refine (yields_setOutputSlot (by simp)).bind fun _ => .pure fun p hp => ?_
    simp only [List.nil_append, List.cons_append, inside_cons] at hp
    simpa using hshrink hp.1

lemma yields_closureWeight : Yields ctx l closureWeight fun weight => [(weight, 1)] := by
  refine .get_bind fun s hs => ⟨[(s.mixWeight, 1)], by simpa using hs.weight, ?_⟩
  refine .ite (fun _ => ?_) fun _ => .pure fun p hp => by simp_all
  exact (yields_read _ _).bind fun _ => .pure fun p hp => by simp_all

/-! ## Nodes with the sockets of their kinds -/

/-- Whether an input of the name, if the kind has one, takes so many slots, at least one. -/
def NodeKind.inputIs (k : NodeKind) (name : String) (size : Nat) : Bool :=
  0 < size && ((Node.ofKind k).inputIndex? name).all fun i =>
    ((k.inputs[i]?).bind fun x => x.ty.stackSize?) == some size

/-- Whether an output of the name, if the kind has one, takes so many slots. -/
def NodeKind.outputIs (k : NodeKind) (name : String) (size : Nat) : Bool :=
  ((Node.ofKind k).outputIndex? name).all fun o =>
    ((k.outputs[o]?).bind fun x => x.ty.stackSize?) == some size

/-- A node that has the sockets of its kind, and whose inputs have no more slots than what is linked
to them, apart from one. -/
structure SectionContext.Regular (ctx : SectionContext) (id : NodeId) (k : NodeKind) : Prop where
  form : ctx.graph.net.form? id = some (Node.ofKind k).form
  takes : ∀ {i source}, ctx.link? id i = some source →
    ctx.inputSize (id, i) ≤ max 1 (ctx.outputSize source)

lemma inputSize_eq_targetType? (b : NodeId × Nat) :
    ctx.inputSize b = ((ctx.net.targetType? b).bind SocketType.stackSize?).getD 0 := by
  rw [inputSize, targetType?, form?, input?]
  cases ctx.net.node? b.1 with
  | none => rfl
  | some node =>
    simp only [map_some, bind_some, Node.form, List.getElem?_map]
    cases node.inputs[b.2]? <;> rfl

/-- All nodes but scripts are regular. -/
lemma regular_of_scripted (hnet : ctx.net.Scripted) {node : Node}
    (hn : ctx.net.node? id = some node) (hk : node.kind.isScript = false) :
    ctx.Regular id node.kind := by
  have hform := form?_of_node? hn
  refine ⟨?_, fun {i source} hl => ?_⟩
  · rw [hform]
    exact congrArg some ((hnet.numbered hform).standard hk)
  · have hfeeds := feeds_of_inputLink? (inputLink?_of_link? hl)
    rw [inputSize_eq_targetType?]
    obtain ⟨t, u, ht, hu, htu⟩ | ⟨_, t, _, _, ht, hsize⟩ := hnet.takes hfeeds hform hk
    · rw [outputSize_eq, ht, hu, bind_some, bind_some,
        SocketType.stackSize?_of_linksTo htu]
      exact le_max_right ..
    · rw [ht, bind_some, hsize]
      exact le_max_left ..

/-- The output of a node with the sockets of its kind. -/
lemma outputSize_of_form {k : NodeKind} (h : ctx.net.form? id = some (Node.ofKind k).form)
    {size o : Nat} (hsize : k.outputIs name size = true)
    (hr : ctx.graph.requireOutput id name = .ok (o, ty)) : ctx.outputSize (id, o) = size := by
  obtain ⟨node, hn, hidx, _⟩ := Graph.requireOutput_eq_ok hr
  have hform : node.form = (Node.ofKind k).form := some.inj ((form?_of_node? hn).symm.trans h)
  have houtputs : node.outputs = k.outputs := congrArg Node.Form.outputs hform
  rw [Node.outputIndex?_eq_of_form hform] at hidx
  simp only [NodeKind.outputIs, hidx, all_some, beq_iff_eq] at hsize
  rw [outputSize, hn, bind_some, houtputs, hsize, getD_some]

namespace SectionContext.Regular

variable {k : NodeKind} {name : String}

lemma inputSize_of (h : ctx.Regular id k) {size i : Nat}
    (hsize : k.inputIs name size = true) (hr : ctx.graph.requireInput id name = .ok (i, ty)) :
    0 < size ∧ ctx.inputSize (id, i) = size := by
  obtain ⟨node, hn, hidx, _⟩ := Graph.requireInput_eq_ok hr
  have hform : node.form = (Node.ofKind k).form := some.inj ((form?_of_node? hn).symm.trans h.form)
  rw [Node.inputIndex?_eq_of_form hform] at hidx
  simp only [NodeKind.inputIs, hidx, all_some, Bool.and_eq_true, decide_eq_true_eq,
    beq_iff_eq] at hsize
  refine ⟨hsize.1, ?_⟩
  rw [inputSize_eq_targetType?, targetType?, h.form, bind_some, Node.form,
    List.getElem?_map, map_map]
  rw [bind_map]
  exact congrArg (·.getD 0) hsize.2

/-- What is linked to an input has room for it. -/
lemma shrinks (h : ctx.Regular id k) {size i : Nat} {source : NodeId × Nat}
    (hin : 0 < size ∧ ctx.inputSize (id, i) = size) (hl : ctx.link? id i = some source) :
    ctx.outputSize source = 0 ∨ 0 < size ∧ size ≤ ctx.outputSize source := by
  have htakes := h.takes hl
  omega

lemma input (h : ctx.Regular id k) (size : Nat) (hsize : k.inputIs name size = true) :
    Yields ctx l (ctx.assignInput id name) fun slot => [(slot, size)] := by
  refine .ofGraph_bind fun r hr => ?_
  obtain ⟨i, ty⟩ := r
  have hin := h.inputSize_of hsize hr
  refine (yields_assignInputAt i).post fun slot p hp => ?_
  simp only [inside_cons, inside_nil, and_true] at hp ⊢
  refine hp.shrink ?_
  rw [heldSize]
  cases hl : ctx.link? id i with
  | none =>
    rw [elim_none]
    omega
  | some source => exact h.shrinks hin hl

lemma output (h : ctx.Regular id k) (size : Nat) (hsize : k.outputIs name size = true) :
    Yields ctx l (ctx.assignOutput id name) fun slot => [(slot, size)] := by
  refine yields_assignOutput size fun o ty hr => ?_
  have hout := outputSize_of_form h.form hsize hr
  omega

end SectionContext.Regular

end Shading
