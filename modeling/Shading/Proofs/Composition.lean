import Mathlib.Tactic
import Shading.Bytecode.Compile

/-!
# Steps put together from other steps

A section is put together from a handful of elementary steps: slots are assigned to inputs and
outputs and given back, and instructions are appended.  What holds of these steps and passes on to
what is put together from them holds of the instructions of a node (`Plain.emitNode`), of what
happens between nodes (`Tends`), of the nodes of a set (`Building.emitSet`) and of the walk over
closures (`Walking.visit`).  The kinds that read attributes of the geometry are left to the user,
since their steps depend on each other, and so are bumps, which may share a slot instead of taking
one.
-/

namespace Shading

open SectionContext

/-- An opcode that stands by itself and reads no attribute. -/
def Opcode.isSingle : Opcode → Bool
  | .closureBsdf | .valueV | .mix | .texCoord | .attr => false
  | _ => true

/-- An opcode that is followed by one instruction of data. -/
def Opcode.hasData : Opcode → Bool
  | .closureBsdf | .valueV | .mix => true
  | _ => false

namespace Emit

/-- A property of steps that passes on to what is put together from them. -/
structure Composes (P : (α : Type) → Emit α → Prop) : Prop where
  pure : ∀ {α : Type} (a : α), P α (Pure.pure a)
  throw : ∀ {α : Type} (e : BytecodeError), P α (MonadExcept.throw e)
  bind : ∀ {α β : Type} {m : Emit α} {f : α → Emit β}, P α m → (∀ a, P β (f a)) → P β (m >>= f)

namespace Composes

variable {P : (α : Type) → Emit α → Prop} {α β : Type} {m m' : Emit α}

lemma ite (_ : Composes P) {c : Prop} [Decidable c] (ht : c → P α m) (hf : ¬ c → P α m') :
    P α (if c then m else m') := by
  split
  · exact ht ‹_›
  · exact hf ‹_›

variable (h : Composes P)
include h

lemma optional {c : Prop} [Decidable c] {f : α → Emit Unit}
    {rest : Unit → Emit β} (hm : P α m) (hf : c → ∀ a, P Unit (f a)) (hrest : ∀ u, P β (rest u)) :
    P β (if c then m >>= fun a => f a >>= rest else rest ()) :=
  h.ite (fun hc => h.bind hm fun a => h.bind (hf hc a) hrest) fun _ => hrest ()

lemma forM {f : α → Emit PUnit} (hf : ∀ a, P _ (f a)) (l : List α) : P _ (l.forM f) := by
  induction l with
  | nil => exact h.pure _
  | cons a l ih => exact h.bind (hf a) fun _ => ih

lemma forIn {f : α → β → Emit (ForInStep β)} {l : List α}
    (hf : ∀ a ∈ l, ∀ b, P _ (f a b)) (b : β) : P β (ForIn.forIn l b f) := by
  induction l generalizing b with
  | nil => exact h.pure _
  | cons a l ih =>
    rw [List.forIn_cons]
    refine h.bind (hf a List.mem_cons_self b) fun r => ?_
    cases r with
    | done b => exact h.pure _
    | yield b => exact ih (fun x hx => hf x (List.mem_cons_of_mem _ hx)) b

lemma foldlM {f : β → α → Emit β} (hf : ∀ b a, P β (f b a)) (l : List α) (b : β) :
    P β (l.foldlM f b) := by
  induction l generalizing b with
  | nil => exact h.pure _
  | cons a l ih => exact h.bind (hf b a) fun b => ih b

lemma ofGraph (x : Except GraphError α) : P α (ofGraph x) := by
  cases x with
  | ok a => exact h.pure a
  | error e => exact h.throw _

lemma ofGraph_bind {x : Except GraphError α} {f : α → Emit β}
    (hf : ∀ a, x = .ok a → P β (f a)) : P β (Emit.ofGraph x >>= f) := by
  cases x with
  | ok a => exact hf a rfl
  | error e => exact h.throw (.graph e)

lemma pack (x y z w : Nat) : P _ (pack x y z w) := by
  unfold Emit.pack
  split
  · exact h.pure _
  · exact h.throw _

lemma slotSize (id : NodeId) (socket : String) (ty : SocketType) :
    P _ (slotSize id socket ty) := by
  unfold SectionContext.slotSize
  split
  · exact h.pure _
  · exact h.throw _

end Composes

/-- A property that also passes on to steps that look at the state, though never at the instructions
or at the numbers of attributes. -/
structure Looks (P : (α : Type) → Emit α → Prop) : Prop extends Composes P where
  get_bind : ∀ {α : Type} {f : SectionState → Emit α},
    (∀ s code ids, f { s with code, ids } = f s) → (∀ s, P α (f s)) → P α (get >>= f)

end Emit

open Emit SectionContext

/-- An opcode that stands by itself and has no result. -/
def Opcode.isSilent : Opcode → Bool
  | .closureSetWeight | .closureWeight | .emissionWeight | .closureEmission | .closureBackground
  | .closureHoldout | .closureVolume | .setDisplacement | .closureSetNormal => true
  | _ => false

lemma Opcode.isSingle_of_isSilent {o : Opcode} (h : o.isSilent = true) : o.isSingle = true := by
  cases o <;> first | rfl | cases h

/-- A property that holds of the elementary steps of a closure. -/
structure Closing (ctx : SectionContext) (id : NodeId) (P : (α : Type) → Emit α → Prop) : Prop
    extends Composes P where
  input : ∀ i, P _ (ctx.assignInputAt id i)
  weight : P _ closureWeight
  silent : ∀ {o a b c}, o.isSilent = true → P _ (op o a b c)
  bsdf : ∀ a b c i, P _ (op .closureBsdf a b c >>= fun _ => push i)

namespace Closing

variable {ctx : SectionContext} {id : NodeId} {P : (α : Type) → Emit α → Prop}

variable (h : Closing ctx id P)
include h

lemma assignInput (name : String) : P _ (ctx.assignInput id name) :=
  h.bind (h.ofGraph _) fun _ => h.input _

lemma assignInputIfLinked (name : String) : P _ (ctx.assignInputIfLinked id name) :=
  h.ite (fun _ => h.assignInput name) fun _ => h.pure _

lemma emitSetWeight (v : Vec3) : P _ (emitSetWeight v) := h.silent rfl

lemma emitClosureColor (node : Node) : P _ (ctx.emitClosureColor id node) :=
  h.ite (fun _ => h.bind (h.assignInput _) fun _ => h.silent rfl) fun _ => h.emitSetWeight _

lemma assignParameter (name : Option String) : P _ (ctx.assignParameter id name) := by
  cases name with
  | some name => exact h.assignInput name
  | none => exact h.pure _

lemma emitBsdf (node : Node) (closure : ClosureType)
    (first second : Option String) : P _ (ctx.emitBsdf id node closure first second) :=
  h.bind (h.emitClosureColor node) fun _ => h.bind (h.assignInputIfLinked _) fun _ =>
    h.bind (h.assignParameter _) fun _ => h.bind (h.assignParameter _) fun _ =>
      h.bind h.weight fun _ => h.bind (h.pack ..) fun _ => h.bsdf ..

lemma emitEmission (node : Node) {o : Opcode} (ho : o.isSilent = true) :
    P _ (ctx.emitEmission id node o) := by
  have hend : P _ (do op o (slotWord (← closureWeight)) 0 0) := h.bind h.weight fun _ => h.silent ho
  exact h.ite (fun _ => h.bind (h.assignInput _) fun _ => h.bind (h.assignInput _) fun _ =>
    h.bind (h.silent rfl) fun _ => hend) fun _ => h.bind (h.emitSetWeight _) fun _ => hend

lemma emitVolume (node : Node) (closure : ClosureType)
    (second : Option String) : P _ (ctx.emitVolume id node closure second) :=
  h.bind (h.emitClosureColor node) fun _ => h.bind (h.assignInput _) fun _ =>
    h.bind (h.assignParameter _) fun _ => h.bind h.weight fun _ => h.bind (h.pack ..) fun _ =>
      h.silent rfl

/-- The output node reads an input at the end of a section. -/
lemma emitOutput : P _ (ctx.emitOutput id) := by
  unfold SectionContext.emitOutput
  split
  case h_3 | h_4 => exact h.pure _
  all_goals exact h.ite (fun _ => h.bind (h.assignInput _) fun _ => h.silent rfl) fun _ => h.pure _

end Closing

/-- A property that holds of the elementary steps of a node that reads no attributes. -/
structure Plain (ctx : SectionContext) (id : NodeId) (P : (α : Type) → Emit α → Prop) : Prop
    extends Composes P where
  input : ∀ i, P _ (ctx.assignInputAt id i)
  output : ∀ name, P _ (ctx.assignOutput id name)
  weight : P _ closureWeight
  single : ∀ {o a b c}, o.isSingle = true → P _ (op o a b c)
  data : ∀ {o a b c i}, o.hasData = true → P _ (op o a b c >>= fun _ => push i)

namespace Plain

variable {ctx : SectionContext} {id : NodeId} {P : (α : Type) → Emit α → Prop}

variable (h : Plain ctx id P)
include h

lemma closing : Closing ctx id P where
  toComposes := h.toComposes
  input := h.input
  weight := h.weight
  silent ho := h.single (Opcode.isSingle_of_isSilent ho)
  bsdf _ _ _ _ := h.data rfl

lemma assignInput (name : String) : P _ (ctx.assignInput id name) := h.closing.assignInput name

lemma assignInputIfLinked (name : String) : P _ (ctx.assignInputIfLinked id name) :=
  h.closing.assignInputIfLinked name

lemma assignOutputIfLinked (name : String) : P _ (ctx.assignOutputIfLinked id name) :=
  h.ite (fun _ => h.output name) fun _ => h.pure _

/-! ## Families of kinds -/

lemma emitQueries {o : Opcode} (ho : o.isSingle = true)
    (outputs : List String) : P _ (ctx.emitQueries id o outputs) := by
  refine h.bind (h.forIn (fun x _ _ => ?_) _) fun _ => h.pure _
  obtain ⟨output, query⟩ := x
  exact h.ite (fun _ => h.bind (h.output _) fun _ => h.bind (h.single ho) fun _ => h.pure _)
    fun _ => h.pure _

lemma emitBump {node : Node} (hshare : (!ctx.isLinked id "Strength" && node.float "Strength" == 0 &&
      ctx.isLinked id "Normal") = true → P _ (ctx.shareOutput id "Normal" "Normal"))
    (invert useObjectSpace : Bool) : P _ (ctx.emitBump id node invert useObjectSpace) :=
  h.ite hshare fun _ => h.bind (h.assignInputIfLinked _) fun _ =>
    h.bind (h.assignInput _) fun _ => h.bind (h.assignInput _) fun _ =>
      h.bind (h.assignInput _) fun _ => h.bind (h.output _) fun _ => h.bind (h.pack ..) fun _ =>
        h.bind (h.pack ..) fun _ => h.single rfl

lemma emitScript (node : Node) : P _ (ctx.emitScript id node) := by
  refine h.bind (h.forIn (fun output _ _ => ?_) _) fun _ => h.pure _
  refine h.ite (fun _ => h.bind (h.output _) fun slot => ?_) fun _ => h.pure _
  refine h.ite (fun _ => ?_) fun _ => h.bind (h.single rfl) fun _ => h.pure _
  have hdata : P _ (op .valueV (slotWord slot) 0 0 >>= fun _ => push (.vec3 Vec3.zero)) :=
    h.data rfl
  rw [← bind_assoc]
  exact h.bind hdata fun _ => h.pure _

/-! ## All kinds -/

/-- What holds of the elementary steps holds of the instructions of a node, if it also holds of
bumps and of the kinds that read attributes. -/
theorem emitNode {node : Node}
    (hnamed : ∀ name, node.kind = .namedAttribute name → P _ (ctx.emitAttribute id name))
    (hcoord : ∀ fromDupli transform, node.kind = .textureCoordinate fromDupli transform →
      P _ (ctx.emitTextureCoordinate id transform))
    (himage : ∀ slot filename colorspace, node.kind = .imageTexture slot filename colorspace →
      P _ (ctx.emitImage id slot colorspace))
    (hchecker : node.kind = .checkerTexture → P _ (ctx.emitChecker id))
    (hbump : ∀ invert useObjectSpace, node.kind = .bump invert useObjectSpace →
      P _ (ctx.emitBump id node invert useObjectSpace)) :
    P _ (ctx.emitNode id node) := by
  unfold SectionContext.emitNode
  split
  · exact h.pure _
  · exact h.pure _
  · exact h.pure _
  · exact h.bind (h.output _) fun _ => h.single rfl
  · exact h.bind (h.output _) fun _ => h.data rfl
  · exact h.bind (h.assignInput _) fun _ => h.bind (h.assignInput _) fun _ =>
      h.bind (h.output _) fun _ => h.bind (h.pack ..) fun _ => h.single rfl
  · exact h.bind (h.assignInput _) fun _ => h.bind (h.assignInput _) fun _ =>
      h.bind (h.assignOutputIfLinked _) fun _ => h.bind (h.assignOutputIfLinked _) fun _ =>
        h.bind (h.pack ..) fun _ => h.single rfl
  · exact h.bind (h.assignInput _) fun _ => h.bind (h.assignInput _) fun _ =>
      h.bind (h.assignInput _) fun _ => h.bind (h.output _) fun _ => h.data rfl
  · exact hnamed _ ‹_›
  · exact hcoord _ _ ‹_›
  · exact h.emitQueries rfl _
  · exact h.emitQueries rfl _
  · exact himage _ _ _ ‹_›
  · exact hchecker ‹_›
  · exact h.bind (h.assignInput _) fun _ => h.bind (h.assignInput _) fun _ =>
      h.bind (h.assignInputIfLinked _) fun _ => h.bind (h.assignOutputIfLinked _) fun _ =>
        h.bind (h.assignOutputIfLinked _) fun _ => h.bind (h.pack ..) fun _ =>
          h.bind (h.pack ..) fun _ => h.single rfl
  · exact h.closing.emitBsdf ..
  · exact h.closing.emitBsdf ..
  · exact h.closing.emitBsdf ..
  · exact h.closing.emitBsdf ..
  · exact h.closing.emitEmission _ rfl
  · exact h.closing.emitEmission _ rfl
  · exact h.bind h.weight fun _ => h.bind (h.closing.emitSetWeight _) fun _ => h.single rfl
  · exact h.closing.emitVolume ..
  · exact h.closing.emitVolume ..
  · exact h.bind (h.assignInput _) fun _ => h.bind (h.assignInput _) fun _ =>
      h.bind (h.output _) fun _ => h.bind (h.output _) fun _ => h.bind (h.pack ..) fun _ =>
        h.single rfl
  · exact hbump _ _ ‹_›
  · exact h.bind (h.assignInput _) fun _ => h.bind (h.output _) fun _ => h.single rfl
  · exact h.bind (h.assignInput _) fun _ => h.bind (h.assignInput _) fun _ =>
      h.bind (h.assignInput _) fun _ => h.bind (h.assignInputIfLinked _) fun _ =>
        h.bind (h.output _) fun _ => h.bind (h.pack ..) fun _ => h.single rfl
  · exact h.emitScript _

end Plain

/-! ## Slots -/

/-- A property that holds of all elementary steps that concern slots, whatever the slots are. -/
structure Handles (P : (α : Type) → Emit α → Prop) : Prop extends Looks P where
  claim : ∀ size, P _ (claim size)
  read : ∀ offset size, P _ (read offset size)
  release : ∀ offset size, P _ (release offset size)
  addUser : ∀ slot size, P _ (modify fun s => { s with stack := s.stack.addUser slot size })
  setInputSlot : ∀ id input slot, P _ (setInputSlot id input slot)
  setOutputSlot : ∀ id output slot, P _ (setOutputSlot id output slot)
  setWeight : ∀ slot, P _ (modify fun s => { s with mixWeight := slot })
  single : ∀ {o a b c}, o.isSingle = true → P _ (op o a b c)
  data : ∀ {o a b c i}, o.hasData = true → P _ (op o a b c >>= fun _ => push i)

namespace Handles

variable {ctx : SectionContext} {id : NodeId} {P : (α : Type) → Emit α → Prop}

variable (h : Handles P)
include h

lemma loadConstant (slot : Nat) (value : SocketValue) (ty : SocketType) :
    P _ (loadConstant slot value ty) :=
  h.ite (fun _ => h.single rfl) fun _ => h.ite (fun _ => h.data rfl) fun _ => h.single rfl

lemma readLink (socket : String) (size : Nat) (source : NodeId × Nat) :
    P _ (readLink id socket size source) := by
  refine h.get_bind (fun _ _ _ => rfl) fun s => ?_
  split
  · exact h.throw _
  · exact h.bind (h.read ..) fun _ => h.pure _

lemma assignInputAt (input : Nat) : P _ (ctx.assignInputAt id input) := by
  unfold SectionContext.assignInputAt
  split
  · exact h.throw _
  refine h.bind (h.slotSize ..) fun size => h.ite (fun _ => h.pure _) fun _ => ?_
  split
  · exact h.bind (h.readLink ..) fun _ => h.bind (h.setInputSlot ..) fun _ => h.pure _
  refine h.get_bind (fun _ _ _ => rfl) fun s => ?_
  split
  · exact h.pure _
  · exact h.bind (h.claim _) fun _ => h.bind (h.loadConstant ..) fun _ =>
      h.bind (h.setInputSlot ..) fun _ => h.pure _

lemma assignOutput (name : String) : P _ (ctx.assignOutput id name) := by
  refine h.bind (h.ofGraph _) fun p => h.get_bind (fun _ _ _ => rfl) fun s => ?_
  split
  · exact h.pure _
  · exact h.bind (h.slotSize ..) fun _ => h.bind (h.claim _) fun _ =>
      h.bind (h.setOutputSlot ..) fun _ => h.pure _

lemma shareOutput (input output : String) : P _ (ctx.shareOutput id input output) := by
  refine h.bind (h.ofGraph _) fun p => h.get_bind (fun _ _ _ => rfl) fun s =>
    h.ite (fun _ => h.pure _) fun _ => ?_
  refine h.bind (h.ofGraph _) fun q => h.get_bind (fun _ _ _ => rfl) fun s => ?_
  split
  · exact h.throw _
  · exact h.bind (h.slotSize ..) fun _ => h.bind (h.read ..) fun _ => h.bind (h.addUser ..)
      fun _ => h.setOutputSlot ..

lemma closureWeight : P _ closureWeight :=
  h.get_bind (fun _ _ _ => rfl) fun _ =>
    h.ite (fun _ => h.bind (h.read ..) fun _ => h.pure _) fun _ => h.pure _

lemma assignWeight (node : Node) : P _ (ctx.assignWeight id node) := by
  unfold SectionContext.assignWeight
  split
  · exact h.pure _
  · exact h.ite (fun _ => h.bind (h.assignInputAt _) fun _ => h.setWeight _) fun _ => h.pure _

lemma plain : Plain ctx id P where
  toComposes := h.toComposes
  input := h.assignInputAt
  output := h.assignOutput
  weight := h.closureWeight
  single := h.single
  data := h.data

/-! ### Kinds that read attributes -/

lemma emitGenerated (hread : ctx.background = false → ∀ slot,
    P _ (emitAttributeRead (.standard .generated) slot wideRead)) (slot : Nat) :
    P _ (ctx.emitGenerated slot) :=
  h.ite (fun _ => h.single rfl) fun hb => hread (by simpa using hb) slot

lemma emitTextureCoordinate {transform : Option Transform}
    (hgenerated : ctx.isOutputLinked id "Generated" = true → ∀ slot, P _ (ctx.emitGenerated slot))
    (hnormal : ∀ slot, P _ (op .texCoord 0 (slotWord slot) 0))
    (huv : ctx.isOutputLinked id "UV" = true → ∀ slot,
      P _ (emitAttributeRead (.standard .uv) slot wideRead)) (hobject : ∀ slot, P _ (do
      op .texCoord 1 (slotWord slot) (Instruction.boolWord transform.isSome)
      if let some t := transform then
        for row in t.rows.toList do
          push (Instruction.vec4 row))) : P _ (ctx.emitTextureCoordinate id transform) := by
  unfold SectionContext.emitTextureCoordinate
  refine h.optional (h.assignOutput _) hgenerated fun _ => ?_
  refine h.optional (h.assignOutput _) (fun _ => hnormal) fun _ => ?_
  refine h.optional (h.assignOutput _) huv fun _ => ?_
  exact h.ite (fun _ => h.bind (h.assignOutput _) hobject) fun _ => h.pure _

lemma assignCoordinate {fallback : Nat → Emit Unit}
    (hf : ctx.isLinked id "Vector" = false → ∀ slot, P _ (fallback slot)) :
    P _ (ctx.assignCoordinate id fallback) :=
  h.ite (fun _ => h.bind (h.plain.assignInput _) fun _ => h.pure _) fun hl =>
    h.bind (h.claim _) fun slot => h.bind (hf (by simpa using hl) slot) fun _ => h.pure _

lemma releaseCoordinate (coordinate : Nat × Bool) :
    P _ (releaseCoordinate coordinate) :=
  h.ite (fun _ => h.release ..) fun _ => h.pure _

lemma emitImage (huv : ctx.isLinked id "Vector" = false → ∀ slot,
    P _ (emitAttributeRead (.standard .uv) slot wideRead)) (slot : UInt32) (colorspace : String) :
    P _ (ctx.emitImage id slot colorspace) :=
  h.bind (h.assignCoordinate huv) fun _ => h.bind (h.plain.assignOutputIfLinked _) fun _ =>
    h.bind (h.plain.assignOutputIfLinked _) fun _ => h.bind (h.pack ..) fun _ =>
      h.bind (h.single rfl) fun _ => h.releaseCoordinate _

lemma emitChecker
    (hgenerated : ctx.isLinked id "Vector" = false → ∀ slot, P _ (ctx.emitGenerated slot)) :
    P _ (ctx.emitChecker id) :=
  h.bind (h.assignCoordinate hgenerated) fun _ => h.bind (h.plain.assignInput _) fun _ =>
    h.bind (h.plain.assignInput _) fun _ => h.bind (h.plain.assignInput _) fun _ =>
      h.bind (h.plain.assignOutputIfLinked _) fun _ =>
        h.bind (h.plain.assignOutputIfLinked _) fun _ => h.bind (h.pack ..) fun _ =>
          h.bind (h.pack ..) fun _ => h.bind (h.single rfl) fun _ => h.releaseCoordinate _

/-! ### Around a section -/

lemma enterBump : P _ ctx.enterBump :=
  h.ite (fun _ => h.bind (h.claim _) fun _ => h.bind (h.single rfl) fun _ => h.pure _) fun _ =>
    h.pure _

lemma leaveBump (state : Option Nat) : P _ (leaveBump state) := by
  cases state with
  | none => exact h.pure _
  | some slot => exact h.bind (h.single rfl) fun _ => h.release ..

end Handles

/-! ## Between nodes -/

/-- A property that holds of what happens between the instructions of nodes: slots are given back and
forgotten. -/
structure Tends (ctx : SectionContext) (P : (α : Type) → Emit α → Prop) : Prop
    extends Looks P where
  setPhase : ∀ phase, P _ (setPhase phase)
  release : ∀ offset size, P _ (release offset size)
  forgetOutput : ∀ {n i x} (readers : List (NodeId × Nat)),
    ctx.graph.net.inputLink? n i = some x → P _ (modify fun s => { s with
      outputSlots := s.outputSlots.erase x
      inputSlots := readers.foldl SlotTable.erase s.inputSlots })
  forgetInput : ∀ x, P _ (modify fun s => { s with inputSlots := s.inputSlots.erase x })

namespace Emit.Composes

variable {ctx : SectionContext} {id root : NodeId} {P : (α : Type) → Emit α → Prop}

lemma collectSide (h : Composes P) (hc : ∀ input, P _ (ctx.collect id input none))
    (side : Option Nat) : P _ (ctx.collectSide id side) := by
  cases side with
  | some input => exact hc input
  | none => exact h.pure _

lemma sharedNodes (h : Composes P) (hc : ∀ input avoid, P _ (ctx.collect root input avoid))
    (side1 side2 : NodeSet) : P _ (ctx.sharedNodes root id side1 side2) := by
  refine h.ite (fun _ => h.pure _) fun _ => h.ofGraph_bind fun _ _ => h.foldlM (fun _ _ => ?_) _ _
  exact h.bind (hc ..) fun _ => h.pure _

end Emit.Composes

namespace Tends

variable {ctx : SectionContext} {id : NodeId} {P : (α : Type) → Emit α → Prop}

lemma clearUser (h : Tends ctx P) (input : Nat) : P _ (ctx.clearUser id input) := by
  unfold SectionContext.clearUser
  dsimp only
  split
  · exact h.pure _
  · rename_i source hl
    refine h.get_bind (fun _ _ _ => rfl) fun s => ?_
    split
    · exact h.pure _
    · exact h.ite (fun _ => h.bind (h.release ..) fun _ => h.forgetOutput _ hl) fun _ => h.pure _

lemma clearUsers (h : Tends ctx P) : P _ (ctx.clearUsers id) := by
  unfold SectionContext.clearUsers
  split
  · exact h.pure _
  · exact h.forM h.clearUser _

lemma clearConstant (h : Tends ctx P) (input : Nat) (socket : Input) :
    P _ (ctx.clearConstant id input socket) := by
  refine h.ite (fun _ => h.pure _) fun _ => h.get_bind (fun _ _ _ => rfl) fun s => ?_
  split
  · exact h.pure _
  · exact h.bind (h.forgetInput _) fun _ => h.release ..

lemma clearConstants (h : Tends ctx P) : P _ (ctx.clearConstants id) := by
  unfold SectionContext.clearConstants
  split
  · exact h.pure _
  · exact h.forM (fun _ => h.clearConstant ..) _

lemma collect (h : Tends ctx P) (input : Nat) (avoid : Option NodeId) :
    P _ (ctx.collect id input avoid) :=
  h.bind (h.setPhase _) fun _ => h.get_bind (fun _ _ _ => rfl) fun _ => h.pure _

lemma collectSide (h : Tends ctx P) (side : Option Nat) : P _ (ctx.collectSide id side) :=
  h.toComposes.collectSide (fun _ => h.collect ..) side

lemma sharedNodes (h : Tends ctx P) (root : NodeId) (side1 side2 : NodeSet) :
    P _ (ctx.sharedNodes root id side1 side2) :=
  h.toComposes.sharedNodes h.collect side1 side2

end Tends

namespace Emit.Looks

variable {ctx : SectionContext} {P : (α : Type) → Emit α → Prop}

lemma pass (h : Looks P) (hemit : ∀ id, P _ (ctx.emission.emit id)) (nodes : List NodeId) :
    P _ (ctx.emission.pass nodes) := by
  induction nodes with
  | nil => exact h.pure _
  | cons id rest ih =>
    refine h.get_bind (fun _ _ _ => rfl) fun s => h.ite (fun _ => ih) fun _ => h.ite (fun _ => ?_)
      fun _ => h.bind ih fun _ => h.pure _
    exact h.bind (hemit id) fun _ => h.bind ih fun _ => h.pure _

lemma run (h : Looks P) (hemit : ∀ id, P _ (ctx.emission.emit id)) (nodes : List NodeId)
    (passes : Nat) : P _ (ctx.emission.run nodes passes) := by
  induction hn : nodes.length using Nat.strong_induction_on generalizing nodes passes with
  | _ k ih =>
    unfold Emission.run
    refine h.bind (h.pass hemit nodes) fun p => h.ite (fun _ => h.pure _) fun _ => ?_
    split
    · rename_i hp
      exact ih _ (hn ▸ hp.2) _ _ rfl
    · exact h.throw _

end Emit.Looks

/-! ## The walk over closures -/

/-- A property that holds of the steps of the walk over closures. -/
structure Walking (ctx : SectionContext) (P : (α : Type) → Emit α → Prop) : Prop
    extends Looks P where
  leaf : ∀ {id node}, ctx.graph.require id = .ok node → P _ (do
    markClosure id
    ctx.generateClosure id node
    markDone id)
  begin : ∀ {id node}, ctx.graph.require id = .ok node → node.kind.special = .combineClosure →
    P _ (markClosure id)
  finish : ∀ {id node}, ctx.graph.require id = .ok node → node.kind.special = .combineClosure →
    P _ (ctx.finish id)
  collect : ∀ id input avoid, P _ (ctx.collect id input avoid)
  emitSet : ∀ nodes, P _ (ctx.emitSet nodes)
  /-- One side of a mix, behind its jump. -/
  side : ∀ {id input o} {m : Emit Unit}, o = .jumpIfOne ∨ o = .jumpIfZero → P _ m → P _ (do
    let slot ← ctx.assignInputAt id input
    let position := (← get).code.size
    op o 0 (slotWord slot) 0
    m
    patchJump position
    return ForInStep.yield PUnit.unit)
  forget : ∀ x, P _ (modify fun s => { s with inputSlots := s.inputSlots.erase x })

namespace Walking

variable {ctx : SectionContext} {P : (α : Type) → Emit α → Prop}

/-- What holds of the steps of the walk holds of the walk.  The induction is on its fuel. -/
theorem visit (h : Walking ctx P) (root : NodeId) (fuel : Nat) (id : NodeId) :
    P _ (ctx.visit root fuel id) := by
  induction fuel generalizing id with
  | zero => exact h.pure _
  | succ fuel ih =>
    refine h.get_bind (fun _ _ _ => rfl) fun s => h.ite (fun _ => h.pure _) fun _ =>
      h.ofGraph_bind fun node hnode => ?_
    refine h.ite (fun _ => h.leaf hnode) fun hc => h.ite (fun _ => h.pure _) fun _ => ?_
    have hfinish := h.finish hnode (not_not.1 hc)
    have hside : ∀ side, P _ (ctx.collectSide id side) :=
      h.toComposes.collectSide fun _ => h.collect ..
    refine h.bind (h.begin hnode (not_not.1 hc)) fun _ => ?_
    split
    · exact h.bind (h.forM ih _) fun _ => hfinish
    refine h.bind (h.collect ..) fun _ => h.bind (h.emitSet _) fun _ =>
      h.bind (hside _) fun side1 => h.bind (hside _) fun side2 =>
        h.bind (h.toComposes.sharedNodes (h.collect _) _ _) fun shared => ?_
    refine h.ite (fun _ => h.bind (h.forM ih _) fun _ => h.bind (h.emitSet _) fun _ => ?_)
      fun _ => ?_
    -- Both sides of the mix, whether there was something to emit before them or not.
    all_goals
      refine h.bind (h.forIn (fun x hx _ => ?_) _) fun _ => h.bind (h.forget _) fun _ => hfinish
      obtain ⟨side, jump⟩ := x
      cases side with
      | none => exact h.pure _
      | some input =>
        have hjump : jump = .jumpIfOne ∨ jump = .jumpIfZero := by
          simp only [List.mem_cons, Prod.mk.injEq, List.not_mem_nil, or_false] at hx
          exact hx.imp And.right And.right
        dsimp only
        cases (ctx.net.inputLink? id input).map Prod.fst with
        | some c => exact h.side hjump (ih c)
        | none => exact h.side (m := Pure.pure ⟨⟩) hjump (h.pure _)

end Walking

/-- A property that holds of the instructions of nodes and of what happens between them. -/
structure Building (ctx : SectionContext) (P : (α : Type) → Emit α → Prop) : Prop
    extends Tends ctx P where
  markDone : ∀ id, P _ (markDone id)
  markClosure : ∀ id, P _ (markClosure id)
  modifyFlags : ∀ f, P _ (modifyFlags f)
  request : ∀ id, P _ (modify fun s => { s with
    requests := ctx.graph.addAttributes ctx.background s.requests id })
  emitNode : ∀ {id node}, ctx.graph.require id = .ok node → P _ (ctx.emitNode id node)
  assignWeight : ∀ id node, P _ (ctx.assignWeight id node)
  dropWeight : P _ (modify fun s => { s with mixWeight := Stack.invalid })

namespace Building

variable {ctx : SectionContext} {P : (α : Type) → Emit α → Prop}

lemma generateNode (h : Building ctx P) (id : NodeId) : P _ (ctx.generateNode id) :=
  h.bind (h.setPhase _) fun _ => h.ofGraph_bind fun _ hnode => h.bind (h.emitNode hnode) fun _ =>
    h.bind h.clearUsers fun _ => h.bind h.clearConstants fun _ =>
      h.bind (h.modifyFlags _) fun _ => h.bind (h.request id) fun _ => h.markDone id

lemma emitSet (h : Building ctx P) (nodes : NodeSet) : P _ (ctx.emitSet nodes) := by
  refine h.bind (h.setPhase _) fun _ => h.bind (h.run (fun id => ?_) _ _) fun _ => h.pure _
  exact h.bind (h.generateNode id) fun _ => h.setPhase _

lemma generateClosure (h : Building ctx P) (id : NodeId) (node : Node) :
    P _ (ctx.generateClosure id node) := by
  refine h.bind (h.forM (fun i => ?_) _) fun _ => h.bind (h.assignWeight id node) fun _ =>
    h.bind (h.generateNode id) fun _ => h.bind h.dropWeight fun _ => h.modifyFlags _
  exact h.ite (fun _ => h.pure _) fun _ => h.bind (h.collect ..) fun _ => h.emitSet _

/-- With what a side of a mix needs, these are the steps of the walk. -/
lemma walking (h : Building ctx P)
    (hside : ∀ {id input o} {m : Emit Unit}, o = .jumpIfOne ∨ o = .jumpIfZero → P _ m → P _ (do
      let slot ← ctx.assignInputAt id input
      let position := (← get).code.size
      op o 0 (slotWord slot) 0
      m
      patchJump position
      return ForInStep.yield PUnit.unit)) : Walking ctx P where
  toLooks := h.toLooks
  leaf _ := h.bind (h.markClosure _) fun _ => h.bind (h.generateClosure ..) fun _ => h.markDone _
  begin _ _ := h.markClosure _
  finish _ _ := h.bind (h.markDone _) fun _ => h.clearUsers
  collect _ := h.collect
  emitSet := h.emitSet
  side := hside
  forget := h.forgetInput

end Building

/-! ## Sections -/

/-- What stands behind the closures of a section. -/
def SectionContext.conclude (ctx : SectionContext) (state : Option Nat) : Emit Unit := do
  setPhase .emitting
  ctx.emitOutput ctx.graph.output
  leaveBump state
  if ctx.entry ≠ .bump then op .stop 0 0 0
  setPhase .finished

section

variable {ctx : SectionContext} {P : (α : Type) → Emit α → Prop} (h : Emit.Composes P)
  (hphase : ∀ phase, P _ (setPhase phase)) (houtput : P _ (ctx.emitOutput ctx.graph.output))
  (hleave : ∀ state, P _ (leaveBump state)) (hstop : P _ (op .stop 0 0 0))

include h hphase houtput hleave hstop

lemma Emit.Composes.ending (state : Option Nat) : P _ (ctx.conclude state) :=
  h.bind (hphase _) fun _ => h.bind houtput fun _ => h.bind (hleave state) fun _ =>
    h.ite (fun _ => h.bind hstop fun _ => hphase _) fun _ => hphase _

lemma Emit.Composes.compile (henter : P _ ctx.enterBump) (hflags : ∀ f, P _ (modifyFlags f))
    (hvisit : ∀ root fuel, P _ (ctx.visit root fuel root)) : P _ ctx.compile := by
  refine h.bind (h.ofGraph _) fun p => h.bind henter fun state => ?_
  dsimp only
  split
  · exact h.bind (hflags _) fun _ => h.bind (hvisit ..) fun _ =>
      h.ending hphase houtput hleave hstop state
  · exact h.ending hphase houtput hleave hstop state

end

end Shading
