import Shading.Bytecode.Error
import Shading.Bytecode.Opcode
import Shading.Shader.Basic
import Shading.Walk.Schedule

/-!
# Sections under construction

The section of one entry point is built step by step: instructions are appended, and slots are
assigned to the outputs and inputs of nodes.  This module holds the state of that construction and
the assignment of slots; what the single kinds of node do with their slots is in
`Shading.Bytecode.Emit`.

A linked input uses the slot of the output that feeds it.  An unlinked one gets a slot of its own,
into which its constant is loaded.  A step that fails leaves the state as it was when it failed, so
that the recorded accesses and the highest slot survive.
-/

namespace Shading

/-- What stays fixed while a section is built. -/
structure SectionContext where
  graph : Graph
  entry : EntryPoint
  /-- The shader is the background: coordinates come from the position, not from a mesh. -/
  background : Bool
  displacementMethod : DisplacementMethod

abbrev SectionContext.net (ctx : SectionContext) : Network := ctx.graph.net

/-- What the construction was doing. -/
inductive Phase where
  | idle | collecting | scheduling | emitting | finished
  deriving DecidableEq, Repr

def Phase.name : Phase → String
  | idle => "Idle"
  | collecting => "Collecting"
  | scheduling => "Scheduling"
  | emitting => "Emitting"
  | finished => "Done"

/-! ## Tables of slots -/

/-- The slots that belong to sockets. -/
abbrev SlotTable : Type := List ((NodeId × Nat) × Nat)

namespace SlotTable

def get? (t : SlotTable) (socket : NodeId × Nat) : Option Nat := t.lookup socket

def erase (t : SlotTable) (socket : NodeId × Nat) : SlotTable := t.filter fun e => e.1 != socket

def insert (t : SlotTable) (socket : NodeId × Nat) (slot : Nat) : SlotTable :=
  (socket, slot) :: t.erase socket

end SlotTable

/-- A section under construction. -/
structure SectionState where
  code : Array Instruction
  stack : Stack
  inputSlots : SlotTable
  outputSlots : SlotTable
  /-- The weight of the closure that is being emitted, or the invalid offset if it is one. -/
  mixWeight : Nat
  done : NodeSet
  closureDone : NodeSet
  flags : ShaderFlags
  requests : AttributeSet
  phase : Phase
  /-- The numbers of attribute names, shared by all sections of a scene. -/
  ids : AttributeIds

def SectionState.new (record : Bool) (ids : AttributeIds) : SectionState where
  code := #[]
  stack := .new record
  inputSlots := []
  outputSlots := []
  mixWeight := Stack.invalid
  done := .empty
  closureDone := .empty
  flags := {}
  requests := .empty
  phase := .idle
  ids := ids

/-- A step of the construction. -/
abbrev Emit (α : Type) : Type := EStateM BytecodeError SectionState α

namespace Emit

/-! ## Elementary steps -/

/-- A step that only asks the graph. -/
def ofGraph {α : Type} : Except GraphError α → Emit α
  | .ok a => return a
  | .error e => throw (.graph e)

def push (i : Instruction) : Emit Unit := modify fun s => { s with code := s.code.push i }

def op (opcode : Opcode) (a b c : Int32) : Emit Unit := push (.op opcode a b c)

def setPhase (phase : Phase) : Emit Unit := modify fun s => { s with phase }

def modifyFlags (f : ShaderFlags → ShaderFlags) : Emit Unit :=
  modify fun s => { s with flags := f s.flags }

def claim (size : Nat) : Emit Nat := do
  let s ← get
  match s.stack.claim size s.code.size with
  | .ok (offset, stack) =>
    set { s with stack }
    return offset
  | .error e => throw (.stack e)

def read (offset size : Nat) : Emit Unit := do
  let s ← get
  match s.stack.read offset size s.code.size with
  | .ok stack => set { s with stack }
  | .error e => throw (.stack e)

def release (offset size : Nat) : Emit Unit :=
  modify fun s => { s with stack := s.stack.release offset size s.code.size }

/-- The number of an attribute, as an operand. -/
def attributeWord (key : AttributeKey) : Emit Int32 :=
  modifyGet fun s => let (id, ids) := s.ids.lookupKey key; (Int32.ofNat id, { s with ids })

/-- Packs four operands. -/
def pack (x y z w : Nat) : Emit Int32 :=
  match Instruction.pack? x y z w with
  | some word => return word
  | none => throw (.operandOverflow (max (max (max x y) z) w))

end Emit

namespace SectionContext

open Emit

/-! ## Links -/

/-- Whether an input is ignored: displacement is evaluated without bumps. -/
def skips (ctx : SectionContext) (id : NodeId) (input : Nat) : Bool :=
  ctx.entry == .displacement &&
    ((ctx.graph.net.inputLink? id input).bind fun l => ctx.graph.net.node? l.1).any fun n =>
      n.kind.special == .bump

/-- The output that feeds an input, unless the section ignores it. -/
def link? (ctx : SectionContext) (id : NodeId) (input : Nat) : Option (NodeId × Nat) :=
  if ctx.skips id input then none else ctx.graph.net.inputLink? id input

/-- Whether the input with the name is linked and not ignored. -/
def isLinked (ctx : SectionContext) (id : NodeId) (name : String) : Bool :=
  (((ctx.graph.net.node? id).bind fun n => n.inputIndex? name).bind (ctx.link? id)).isSome

/-- Whether the output with the name feeds anything. -/
def isOutputLinked (ctx : SectionContext) (id : NodeId) (name : String) : Bool :=
  ((ctx.graph.net.node? id).bind fun n => n.outputIndex? name).any
    (ctx.graph.net.isOutputLinked id)

/-! ## Assigning slots -/

/-- The number of slots of a socket. -/
def slotSize (id : NodeId) (socket : String) (ty : SocketType) : Emit Nat :=
  match ty.stackSize? with
  | some size => return size
  | none => throw (.unsupportedSocketType id socket ty)

/-- Loads the constant of an unlinked input into a slot. -/
def loadConstant (slot : Nat) (value : SocketValue) (ty : SocketType) : Emit Unit :=
  if ty = .int then op .valueF (value.int?.getD 0) (Int32.ofNat slot) 0
  else if ty.isVec3 then do
    op .valueV (Int32.ofNat slot) 0 0
    push (.vec3 (value.vec3?.getD Vec3.zero))
  else op .valueF (Instruction.floatWord (value.float?.getD 0)) (Int32.ofNat slot) 0

def setInputSlot (id : NodeId) (input slot : Nat) : Emit Unit :=
  modify fun s => { s with inputSlots := s.inputSlots.insert (id, input) slot }

def setOutputSlot (id : NodeId) (output slot : Nat) : Emit Unit :=
  modify fun s => { s with outputSlots := s.outputSlots.insert (id, output) slot }

/-- The slot of the output that feeds an input, which is read. -/
def readLink (id : NodeId) (socket : String) (size : Nat) (source : NodeId × Nat) : Emit Nat := do
  match (← get).outputSlots.get? source with
  | none => throw (.unassignedLink id socket)
  | some slot =>
    read slot size
    return slot

/-- The slot that holds the value of an input. -/
def assignInputAt (ctx : SectionContext) (id : NodeId) (input : Nat) : Emit Nat := do
  match ctx.graph.net.input? id input with
  | none => throw (.graph (.inputNotFound id (toString input)))
  | some socket =>
    let size ← slotSize id socket.name socket.ty
    if size = 0 then return Stack.invalid
    match ctx.link? id input with
    | some source =>
      let slot ← readLink id socket.name size source
      setInputSlot id input slot
      return slot
    | none =>
      match (← get).inputSlots.get? (id, input) with
      | some slot => return slot
      | none =>
        let slot ← claim size
        loadConstant slot socket.value socket.ty
        setInputSlot id input slot
        return slot

def assignInput (ctx : SectionContext) (id : NodeId) (name : String) : Emit Nat := do
  let (input, _) ← ofGraph (ctx.graph.requireInput id name)
  ctx.assignInputAt id input

/-- The slot of an input, or the invalid offset if nothing is linked to it. -/
def assignInputIfLinked (ctx : SectionContext) (id : NodeId) (name : String) : Emit Nat :=
  if ctx.isLinked id name then ctx.assignInput id name else return Stack.invalid

/-- The slot of an output, taken when it is first asked for. -/
def assignOutput (ctx : SectionContext) (id : NodeId) (name : String) : Emit Nat := do
  let (output, ty) ← ofGraph (ctx.graph.requireOutput id name)
  match (← get).outputSlots.get? (id, output) with
  | some slot => return slot
  | none =>
    let size ← slotSize id name ty
    let slot ← claim size
    setOutputSlot id output slot
    return slot

/-- The slot of an output, or the invalid offset if it feeds nothing. -/
def assignOutputIfLinked (ctx : SectionContext) (id : NodeId) (name : String) : Emit Nat :=
  if ctx.isOutputLinked id name then ctx.assignOutput id name else return Stack.invalid

/-- Lets an output share the slot of what feeds an input, without a copy. -/
def shareOutput (ctx : SectionContext) (id : NodeId) (input output : String) : Emit Unit := do
  let (outIndex, ty) ← ofGraph (ctx.graph.requireOutput id output)
  if ((← get).outputSlots.get? (id, outIndex)).isSome then return
  let (inIndex, _) ← ofGraph (ctx.graph.requireInput id input)
  match (ctx.link? id inIndex).bind (← get).outputSlots.get? with
  | none => throw (.unassignedLink id input)
  | some slot =>
    let size ← slotSize id output ty
    read slot size
    modify fun s => { s with stack := s.stack.addUser slot size }
    setOutputSlot id outIndex slot

/-- The weight of the closure that is being emitted. -/
def closureWeight : Emit Nat := do
  let weight := (← get).mixWeight
  if weight ≠ Stack.invalid then read weight 1
  return weight

end SectionContext

end Shading
