import Shading.Proofs.Machine
import Shading.Proofs.StepRelations

/-!
# The boundaries between nodes

A section is built node by node.  `Chronicle` builds it in the same way and keeps the states between
nodes: the empty section, the one after the shading state was saved, after every node, after every
mix or sum of closures, and at the end.  It also checks what the construction passes over: that a
jump is there when its target is filled in, that a weight is among the inputs, and that a walk is
not cut off.

Leaving the boundaries and the checks out gives the construction itself (`erases_compile`), so they
are those of the compilation of a section, also of one that fails.  What the steps of a walk keep is
kept by the walk (`Chronicle.Walks.visit`).
-/

namespace Shading

open SectionContext Emit

/-! ## Building a section with its boundaries -/

/-- A section between two nodes, with the slot that is reserved for the shading state. -/
structure Boundary where
  state : SectionState
  reserved : Option Nat

/-- The run of slots that is reserved for the shading state. -/
def reservedRange (reserved : Option Nat) : List SlotRange :=
  (reserved.map fun slot => (slot, bumpStateSize)).toList

/-- A section under construction, with its boundaries so far, the latest in front. -/
structure History where
  now : Boundary
  past : List Boundary
  /-- All checks so far were passed. -/
  sound : Bool

/-- A step of the construction that keeps boundaries. -/
abbrev Chronicle (α : Type) : Type := EStateM BytecodeError History α

namespace Chronicle

variable {α β : Type} (ctx : SectionContext)

/-- A step without boundaries. -/
def lift (m : Emit α) : Chronicle α := fun h =>
  match m h.now.state with
  | .ok a s => .ok a { h with now.state := s }
  | .error e s => .error e { h with now.state := s }

/-- Keeps a boundary. -/
def mark : Chronicle Unit := modify fun h => { h with past := h.now :: h.past }

def check (c : SectionState → Bool) : Chronicle Unit :=
  modify fun h => { h with sound := h.sound && c h.now.state }

/-- Sets what is reserved for the shading state. -/
def reserve (reserved : Option Nat) : Chronicle Unit :=
  modify fun h => { h with now.reserved := reserved }

def emission : Emission BytecodeError History where
  sources := ctx.emission.sources
  isDone := fun h id => ctx.emission.isDone h.now.state id
  emit := fun id => do
    lift (ctx.emission.emit id)
    mark
  stuck := ctx.emission.stuck

def emitSet (nodes : NodeSet) : Chronicle Unit := do
  lift (setPhase .scheduling)
  let _ ← (emission ctx).schedule nodes

def emitInput (id : NodeId) (input : Nat) : Chronicle Unit := do
  if ctx.skips id input || !ctx.graph.net.isInputLinked id input then return
  emitSet ctx (← lift (ctx.collect id input none))

def generateClosure (id : NodeId) (node : Node) : Chronicle Unit := do
  (List.range node.inputs.length).forM (emitInput ctx id)
  lift (ctx.assignWeight id node)
  lift (ctx.generateNode id)
  lift (modify fun s => { s with mixWeight := Stack.invalid })
  lift (modifyFlags fun f => f.union (ctx.closureFlags id node.kind))

/-- A node that does not combine closures. -/
def leaf (id : NodeId) (node : Node) : Chronicle Unit := do
  check fun _ => (node.weightIndex? (ctx.entry == .volume)).all (· < node.inputs.length)
  lift (markClosure id)
  generateClosure ctx id node
  lift (markDone id)
  mark

def visit (root : NodeId) : Nat → NodeId → Chronicle Unit
  | 0, _ => check fun _ => false
  | fuel + 1, id => do
    if (← get).now.state.closureDone.contains id then return
    let node ← lift (ofGraph (ctx.graph.require id))
    if node.kind.special ≠ .combineClosure then leaf ctx id node
    else
      let first := ctx.linkedInput? id node "Closure1"
      let second := ctx.linkedInput? id node "Closure2"
      if first.isNone && second.isNone then return
      lift (markClosure id)
      let child := fun input => (ctx.graph.net.inputLink? id input).map Prod.fst
      let children := [first, second].filterMap fun input => input.bind child
      match ctx.linkedInput? id node "Fac" with
      | none => children.forM fun c => visit root fuel c
      | some factor =>
        emitSet ctx (← lift (ctx.collect id factor none))
        let side1 ← lift (ctx.collectSide id first)
        let side2 ← lift (ctx.collectSide id second)
        let shared ← lift (ctx.sharedNodes root id side1 side2)
        if !shared.isEmpty then
          (ctx.sharedClosures shared children).forM fun c => visit root fuel c
          emitSet ctx shared
        for (side, jump) in [(first, Opcode.jumpIfOne), (second, Opcode.jumpIfZero)] do
          if let some input := side then
            let slot ← lift (ctx.assignInputAt id factor)
            let position := (← get).now.state.code.size
            lift (op jump 0 (slotWord slot) 0)
            if let some c := child input then visit root fuel c
            check fun s => position < s.code.size
            lift (patchJump position)
        lift (modify fun s => { s with inputSlots := s.inputSlots.erase (id, factor) })
      lift (ctx.finish id)
      mark

def enterBump : Chronicle (Option Nat) := do
  let state ← lift ctx.enterBump
  reserve state
  mark
  return state

def leaveBump (state : Option Nat) : Chronicle Unit := do
  lift (SectionContext.leaveBump state)
  reserve none

/-- What stands behind the closures of a section. -/
def conclude (state : Option Nat) : Chronicle Unit := do
  lift (setPhase .emitting)
  lift (ctx.emitOutput ctx.graph.output)
  mark
  leaveBump state
  if ctx.entry ≠ .bump then lift (op .stop 0 0 0)
  lift (setPhase .finished)
  mark

def compile : Chronicle Unit := do
  mark
  let output := ctx.graph.output
  let (terminal, _) ← lift (ofGraph (ctx.graph.requireInput output ctx.entry.terminal))
  let state ← enterBump ctx
  if let some (root, _) := ctx.graph.net.inputLink? output terminal then
    lift (modifyFlags fun f => f.union (entryFlags ctx.entry))
    visit ctx root (ctx.graph.net.nodeCount + 1) root
  lift (setPhase .emitting)
  lift (ctx.emitOutput output)
  mark
  leaveBump state
  if ctx.entry ≠ .bump then lift (op .stop 0 0 0)
  lift (setPhase .finished)
  mark

end Chronicle

/-! ## Walks -/

namespace Chronicle

/-- The steps of a walk keep `P`, and where they fail there is `E`.  What is kept may depend on the
fuel, which is one less below a mix or sum, and on a bound for the instructions. -/
structure Walks (ctx : SectionContext) (P : (size fuel : Nat) → History → Prop)
    (E : History → Prop) : Prop where
  fail : ∀ {size fuel h}, P size fuel h → E h
  floor {size : Nat} : Leads (P size 0) (check fun _ => false) (fun _ => P size 0) E
  leaf {size fuel : Nat} {id : NodeId} {node : Node} (hnode : ctx.graph.require id = .ok node) :
    Leads (P size fuel) (leaf ctx id node) (fun _ => P size fuel) E
  start {size fuel : Nat} {id : NodeId} {node : Node} (hnode : ctx.graph.require id = .ok node) :
    Leads (fun h => P size (fuel + 1) h ∧ id ∉ h.now.state.closureDone) (lift (markClosure id))
      (fun _ => P size fuel) E
  collect {size fuel : Nat} (id : NodeId) (input : Nat) :
    Leads (P size fuel) (lift (ctx.collect id input none)) (fun _ => P size fuel) E
  side {size fuel : Nat} (id : NodeId) (input : Option Nat) :
    Leads (P size fuel) (lift (ctx.collectSide id input)) (fun _ => P size fuel) E
  shared {size fuel : Nat} (root id : NodeId) (side1 side2 : NodeSet) :
    Leads (P size fuel) (lift (ctx.sharedNodes root id side1 side2)) (fun _ => P size fuel) E
  emitSet {size fuel : Nat} (nodes : NodeSet) :
    Leads (P size fuel) (emitSet ctx nodes) (fun _ => P size fuel) E
  factor {size fuel : Nat} (id : NodeId) (input : Nat) :
    Leads (P size fuel) (lift (ctx.assignInputAt id input)) (fun _ => P size fuel) E
  /-- What stands behind a jump. -/
  jump {size fuel slot : Nat} {o : Opcode} {m : Chronicle Unit}
    (hm : ∀ k, Leads (P k fuel) m (fun _ => P k fuel) E) :
    Leads (P size fuel) (do
      let position := (← get).now.state.code.size
      lift (op o 0 (slotWord slot) 0)
      m
      check fun s => position < s.code.size
      lift (patchJump position)
      return ForInStep.yield PUnit.unit) (fun _ => P size fuel) E
  forget {size fuel : Nat} {id : NodeId} {node : Node} {input : Nat}
    (h : ctx.linkedInput? id node "Fac" = some input) :
    Leads (P size fuel) (lift (modify fun s => { s with inputSlots := s.inputSlots.erase (id, input) }))
      (fun _ => P size fuel) E
  finish {size fuel : Nat} {id : NodeId} {node : Node} (hnode : ctx.graph.require id = .ok node)
    (hc : node.kind.special = .combineClosure) :
    Leads (P size fuel) (do
      lift (ctx.finish id)
      mark) (fun _ => P size (fuel + 1)) E

lemma leads_ask {α β : Type} {x : Except GraphError α} {f : α → Chronicle β} {P E : History → Prop}
    {Q : β → History → Prop} (hE : ∀ h, P h → E h) (hf : ∀ a, x = .ok a → Leads P (f a) Q E) :
    Leads P (lift (ofGraph x) >>= f) Q E := by
  cases x with
  | ok a => exact hf a rfl
  | error e => exact hE

/-- What the steps of a walk keep is kept by the walk.  The induction is on the fuel. -/
theorem Walks.visit {ctx : SectionContext} {P : (size fuel : Nat) → History → Prop}
    {E : History → Prop} (h : Walks ctx P E) (root : NodeId) (size fuel : Nat) (id : NodeId) :
    Leads (P size fuel) (visit ctx root fuel id) (fun _ => P size fuel) E := by
  induction fuel generalizing size id with
  | zero => exact h.floor
  | succ fuel ih =>
    refine .get_bind fun t ht => .ite (fun _ => .pure fun _ e => e ▸ ht) fun hnew => ?_
    refine leads_ask (fun _ e => e ▸ h.fail ht) fun node hnode => ?_
    refine .ite (fun _ => .pre (fun _ e => e ▸ ht) (h.leaf hnode)) fun hc =>
      .ite (fun _ => .pure fun _ e => e ▸ ht) fun _ => ?_
    have hstart := @h.start size fuel id node hnode
    refine .pre ?_ (hstart.bind fun _ => ?_)
    · rintro _ rfl
      exact ⟨ht, by simpa [OrderedSet.contains_iff] using hnew⟩
    have hfinish := @h.finish size fuel id node hnode (not_not.1 hc)
    dsimp only
    cases hfactor : ctx.linkedInput? id node "Fac" with
    | none => exact (Triple.forM fun c _ => ih size c).bind fun _ => hfinish
    | some factor =>
      refine (h.collect id factor).bind fun _ => (h.emitSet _).bind fun _ =>
        (h.side id _).bind fun _ => (h.side id _).bind fun _ => (h.shared root id _ _).bind fun _ => ?_
      refine .ite (fun _ => (Triple.forM fun c _ => ih size c).bind fun _ =>
        (h.emitSet _).bind fun _ => ?_) fun _ => ?_
      -- Both sides of the mix, whether there was something to emit before them or not.
      all_goals
        refine (Triple.forIn (fun x _ _ => ?_) _).bind fun _ => (h.forget hfactor).bind fun _ =>
          hfinish
        cases x.1 with
        | none => exact .pure fun _ hh => hh
        | some input =>
          refine (h.factor id factor).bind fun slot => ?_
          cases (ctx.net.inputLink? id input).map Prod.fst with
          | none => exact h.jump (m := Pure.pure ⟨⟩) fun _ => .pure fun _ hh => hh
          | some c => exact h.jump fun size => ih size c

end Chronicle

/-! ## Leaving the boundaries out -/

/-- An outcome without the boundaries. -/
def History.erase {α : Type} :
    EStateM.Result BytecodeError History α → EStateM.Result BytecodeError SectionState α
  | .ok a h => .ok a h.now.state
  | .error e h => .error e h.now.state

/-- Without its boundaries the one step is the other. -/
def Erases {α : Type} (m : Chronicle α) (m' : Emit α) : Prop :=
  ∀ h, History.erase (m h) = m' h.now.state

namespace Erases

variable {α β : Type} {m n : Chronicle α} {m' n' : Emit α} {f : α → Chronicle β} {f' : α → Emit β}

lemma pure (a : α) : Erases (Pure.pure a) (Pure.pure a) := fun _ => rfl

lemma throw (e : BytecodeError) :
    Erases (MonadExcept.throw e : Chronicle α) (MonadExcept.throw e) := fun _ => rfl

lemma lift (m : Emit α) : Erases (Chronicle.lift m) m := by
  intro h
  rw [Chronicle.lift]
  cases m h.now.state <;> rfl

lemma bind (hm : Erases m m') (hf : ∀ a, Erases (f a) (f' a)) : Erases (m >>= f) (m' >>= f') := by
  intro h
  have hbind : (m >>= f) h = EStateM.bind m f h := rfl
  have hbind' : (m' >>= f') h.now.state = EStateM.bind m' f' h.now.state := rfl
  rw [hbind, hbind', EStateM.bind, EStateM.bind, ← hm h]
  cases m h with
  | ok a t => exact hf a t
  | error e t => rfl

lemma get_bind {f : History → Chronicle β} {f' : SectionState → Emit β}
    (h : ∀ h, Erases (f h) (f' h.now.state)) : Erases (get >>= f) (get >>= f') := fun t => h t t

lemma ite {c : Prop} [Decidable c] (ht : Erases m m') (hf : Erases n n') :
    Erases (if c then m else n) (if c then m' else n') := by
  split
  · exact ht
  · exact hf

lemma forM {f : α → Chronicle PUnit} {f' : α → Emit PUnit} (h : ∀ a, Erases (f a) (f' a))
    (l : List α) : Erases (l.forM f) (l.forM f') := by
  induction l with
  | nil => exact pure _
  | cons a l ih => exact (h a).bind fun _ => ih

lemma forIn {f : α → β → Chronicle (ForInStep β)} {f' : α → β → Emit (ForInStep β)}
    (h : ∀ a b, Erases (f a b) (f' a b)) (l : List α) (b : β) :
    Erases (ForIn.forIn l b f) (ForIn.forIn l b f') := by
  induction l generalizing b with
  | nil => exact pure _
  | cons a l ih =>
    rw [List.forIn_cons, List.forIn_cons]
    refine (h a b).bind fun r => ?_
    cases r with
    | done b => exact pure _
    | yield b => exact ih b

/-! ### Steps that only concern the boundaries -/

lemma mark : Erases Chronicle.mark (Pure.pure ⟨⟩) := fun _ => rfl

lemma check (c : SectionState → Bool) : Erases (Chronicle.check c) (Pure.pure ⟨⟩) := fun _ => rfl

lemma reserve (reserved : Option Nat) : Erases (Chronicle.reserve reserved) (Pure.pure ⟨⟩) :=
  fun _ => rfl

lemma skip {m : Chronicle PUnit} {f : PUnit → Chronicle β} {g : Emit β}
    (hm : Erases m (Pure.pure ⟨⟩)) (hf : Erases (f ⟨⟩) g) : Erases (m >>= f) g :=
  hm.bind fun _ => hf

lemma rest {f : α → Chronicle α} (hm : Erases m m') (hf : ∀ a, Erases (f a) (Pure.pure a)) :
    Erases (m >>= f) m' := by
  have := hm.bind hf
  rwa [bind_pure] at this

/-! ### Sections -/

section Scheduling

variable {w : Emission BytecodeError History} {w' : Emission BytecodeError SectionState}
  (hsources : w.sources = w'.sources) (hdone : ∀ h n, w.isDone h n = w'.isDone h.now.state n)
  (hemit : ∀ n, Erases (w.emit n) (w'.emit n))

include hsources hdone hemit

lemma pass (nodes : List NodeId) : Erases (w.pass nodes) (w'.pass nodes) := by
  induction nodes with
  | nil => exact pure _
  | cons n rest ih =>
    refine get_bind fun h => ?_
    have hready : w.isReady h n = w'.isReady h.now.state n := by
      rw [Emission.isReady, Emission.isReady, hsources]
      exact List.all_congr rfl fun m => hdone h m
    rw [hdone h n, hready]
    refine ite ih (ite ?_ ?_)
    · exact (hemit n).bind fun _ => ih.bind fun _ => pure _
    · exact ih.bind fun _ => pure _

lemma run (hstuck : w.stuck = w'.stuck) (nodes : List NodeId) (passes : Nat) :
    Erases (w.run nodes passes) (w'.run nodes passes) := by
  induction hlen : nodes.length using Nat.strong_induction_on generalizing nodes passes with
  | _ len ih =>
    unfold Emission.run
    refine (pass hsources hdone hemit nodes).bind fun p => ?_
    refine ite (pure _) ?_
    split
    · rename_i hp
      exact ih _ (hlen ▸ hp.2) _ _ rfl
    · rw [hstuck]
      exact throw _

end Scheduling

variable (ctx : SectionContext)

lemma emitSet (nodes : NodeSet) : Erases (Chronicle.emitSet ctx nodes) (ctx.emitSet nodes) := by
  refine (lift _).bind fun _ => bind ?_ fun _ => pure _
  exact run rfl (fun _ _ => rfl) (fun n => (lift _).rest fun _ => mark) rfl _ _

lemma emitInput (id : NodeId) (input : Nat) :
    Erases (Chronicle.emitInput ctx id input) (ctx.emitInput id input) :=
  ite (pure _) ((lift _).bind fun _ => emitSet ctx _)

lemma generateClosure (id : NodeId) (node : Node) :
    Erases (Chronicle.generateClosure ctx id node) (ctx.generateClosure id node) := by
  refine (forM (emitInput ctx id) _).bind fun _ => (lift _).bind fun _ => (lift _).bind fun _ => ?_
  exact (lift _).bind fun _ => lift _

lemma leaf (id : NodeId) (node : Node) : Erases (Chronicle.leaf ctx id node) (do
    markClosure id
    ctx.generateClosure id node
    markDone id) :=
  (check _).skip <| (lift _).bind fun _ => (generateClosure ctx id node).bind fun _ =>
    (lift _).rest fun _ => mark

lemma visit (root : NodeId) (fuel : Nat) (id : NodeId) :
    Erases (Chronicle.visit ctx root fuel id) (ctx.visit root fuel id) := by
  induction fuel generalizing id with
  | zero => exact check _
  | succ fuel ih =>
    refine get_bind fun h => ite (pure _) ((lift _).bind fun node => ite (leaf ctx id node) ?_)
    refine ite (pure _) ((lift _).bind fun _ => ?_)
    have hfinish : Erases (do
        Chronicle.lift (ctx.finish id)
        Chronicle.mark) (ctx.finish id) := (lift _).rest fun _ => mark
    dsimp only
    cases ctx.linkedInput? id node "Fac" with
    | none => exact (forM ih _).bind fun _ => hfinish
    | some factor =>
      refine (lift _).bind fun _ => (emitSet ctx _).bind fun _ => (lift _).bind fun _ =>
        (lift _).bind fun _ => (lift _).bind fun shared => ?_
      refine ite ((forM ih _).bind fun _ => (emitSet ctx _).bind fun _ => ?_) ?_
      all_goals
        refine (forIn (fun x _ => ?_) _ _).bind fun _ => (lift _).bind fun _ => hfinish
        cases x.1 with
        | none => exact pure _
        | some input =>
          refine (lift _).bind fun slot => get_bind fun t => (lift _).bind fun _ => ?_
          cases (ctx.net.inputLink? id input).map Prod.fst with
          | none => exact (check _).skip ((lift _).bind fun _ => pure _)
          | some c => exact (ih c).bind fun _ => (check _).skip ((lift _).bind fun _ => pure _)

lemma enterBump : Erases (Chronicle.enterBump ctx) ctx.enterBump :=
  (lift _).rest fun _ => (reserve _).skip (mark.skip (pure _))

lemma leaveBump (state : Option Nat) :
    Erases (Chronicle.leaveBump state) (SectionContext.leaveBump state) :=
  (lift _).rest fun _ => reserve _

end Erases

/-- Without the boundaries the section is built as it is. -/
theorem erases_compile (ctx : SectionContext) : Erases (Chronicle.compile ctx) ctx.compile := by
  refine Erases.mark.skip ((Erases.lift _).bind fun x =>
    (Erases.enterBump ctx).bind fun state => ?_)
  have hfinished : Erases (do
      Chronicle.lift (setPhase .finished)
      Chronicle.mark) (setPhase .finished) := (Erases.lift _).rest fun _ => .mark
  have hend : Erases (Chronicle.conclude ctx state) (ctx.conclude state) :=
    (Erases.lift _).bind fun _ => (Erases.lift _).bind fun _ => Erases.mark.skip <|
      (Erases.leaveBump state).bind fun _ =>
        .ite ((Erases.lift _).bind fun _ => hfinished) hfinished
  cases ctx.net.inputLink? ctx.graph.output x.1 with
  | none => exact hend
  | some root =>
    exact (Erases.lift _).bind fun _ => (Erases.visit ctx root.1 _ root.1).bind fun _ => hend

/-- Nothing has been built. -/
def History.start (record : Bool) (ids : AttributeIds) : History :=
  ⟨⟨.new record ids, none⟩, [], true⟩

/-- The boundaries of the compilation of a section, the latest first. -/
def SectionContext.boundaries (ctx : SectionContext) (record : Bool) (ids : AttributeIds) :
    List Boundary :=
  match Chronicle.compile ctx (.start record ids) with
  | .ok _ h => h.past
  | .error _ h => h.past

end Shading
