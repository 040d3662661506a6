import Shading.Bytecode.Emit

/-!
# Walking the tree of closures

A section is built by walking the closures that feed its terminal.  Everything that a closure
depends on is emitted before it.

A mix with a linked factor runs only the sides that have weight: each side stands behind a jump
that skips it.  What both sides use, or what is used outside the mix as well, must not stand behind
a jump and is emitted before both.

Slots are given back as early as possible: an output's slot when everything that it feeds is done,
the slot of a constant as soon as its node is emitted.
-/

namespace Shading.SectionContext

open Emit

/-! ## Giving slots back -/

/-- Gives back the slot of the output that feeds an input, if nothing else will read it. -/
def clearUser (ctx : SectionContext) (id : NodeId) (input : Nat) : Emit Unit := do
  let net := ctx.graph.net
  match net.inputLink? id input with
  | none => return
  | some source =>
    let s ← get
    match s.outputSlots.get? source with
    | none => return
    | some slot =>
      let consumers := net.outputLinks source.1 source.2
      if consumers.all fun c => c.1 == id || s.done.contains c.1 then
        let output := (net.node? source.1).bind fun n => n.outputs[source.2]?
        let size := (output.bind fun o => o.ty.stackSize?).getD 0
        release slot size
        modify fun s => { s with
          outputSlots := s.outputSlots.erase source
          inputSlots := consumers.foldl SlotTable.erase s.inputSlots }

def clearUsers (ctx : SectionContext) (id : NodeId) : Emit Unit :=
  match ctx.graph.net.node? id with
  | none => return
  | some node => (List.range node.inputs.length).forM (ctx.clearUser id)

/-- Gives back the constant that was loaded for an input. -/
def clearConstant (ctx : SectionContext) (id : NodeId) (input : Nat) (socket : Input) :
    Emit Unit := do
  if (ctx.link? id input).isSome then return
  match (← get).inputSlots.get? (id, input) with
  | none => return
  | some slot =>
    modify fun s => { s with inputSlots := s.inputSlots.erase (id, input) }
    release slot (socket.ty.stackSize?.getD 0)

def clearConstants (ctx : SectionContext) (id : NodeId) : Emit Unit :=
  match ctx.graph.net.node? id with
  | none => return
  | some node => node.inputs.zipIdx.forM fun (socket, input) => ctx.clearConstant id input socket

/-! ## Nodes -/

def markDone (id : NodeId) : Emit Unit := modify fun s => { s with done := s.done.insert id }

def markClosure (id : NodeId) : Emit Unit :=
  modify fun s => { s with closureDone := s.closureDone.insert id }

/-- The flags that a node sets in a section. -/
def nodeFlags (entry : EntryPoint) (kind : NodeKind) : ShaderFlags :=
  let own : ShaderFlags := match entry with
    | .surface =>
      { hasSurfaceSpatialVarying := kind.variesInSpace, hasSurfaceRaytrace := kind.castsRays }
    | .volume =>
      { hasVolumeSpatialVarying := kind.variesInSpace
        hasVolumeAttributeDependency := kind.readsAttributes }
    | .bump | .displacement => {}
  { own with hasIntegratorDependency := kind.readsIntegrator }

/-- Emits a node whose sources are done. -/
def generateNode (ctx : SectionContext) (id : NodeId) : Emit Unit := do
  setPhase .emitting
  let node ← ofGraph (ctx.graph.require id)
  ctx.emitNode id node
  ctx.clearUsers id
  ctx.clearConstants id
  modifyFlags fun f => f.union (nodeFlags ctx.entry node.kind)
  modify fun s => { s with requests := ctx.graph.addAttributes ctx.background s.requests id }
  markDone id

/-- How sets of nodes are emitted. -/
def emission (ctx : SectionContext) : Emission BytecodeError SectionState where
  sources := ctx.graph.net.sources ctx.skips
  isDone := fun s id => s.done.contains id
  emit := fun id => do
    ctx.generateNode id
    setPhase .scheduling
  stuck := fun remaining => .graph (.unschedulable remaining)

/-- The nodes that have to be emitted before an input is read. -/
def collect (ctx : SectionContext) (id : NodeId) (input : Nat) (avoid : Option NodeId) :
    Emit NodeSet := do
  setPhase .collecting
  let s ← get
  return ctx.graph.net.dependencies ctx.skips s.done.contains .empty id input avoid

def emitSet (ctx : SectionContext) (nodes : NodeSet) : Emit Unit := do
  setPhase .scheduling
  let _ ← ctx.emission.schedule nodes

/-! ## Closures -/

/-- The flags that a closure sets in the surface section. -/
def closureFlags (ctx : SectionContext) (id : NodeId) (kind : NodeKind) : ShaderFlags :=
  if ctx.entry = .surface then
    { hasSurfaceEmission := kind.emitsSurface
      hasSurfaceTransparent := kind.isTransparent
      hasSurfaceBssrdf := kind.isSubsurface
      hasBump := ctx.graph.hasBump id
      hasBssrdfBump := ctx.graph.hasBump id && kind.isSubsurface }
  else {}

/-- Emits what an input of a closure depends on. -/
def emitInput (ctx : SectionContext) (id : NodeId) (input : Nat) : Emit Unit := do
  if ctx.skips id input || !ctx.graph.net.isInputLinked id input then return
  ctx.emitSet (← ctx.collect id input none)

/-- Makes the weight of a closure available, unless it is the constant one. -/
def assignWeight (ctx : SectionContext) (id : NodeId) (node : Node) : Emit Unit := do
  match node.weightIndex? (ctx.entry == .volume) with
  | none => return
  | some input =>
    let value := ((node.inputs[input]?).bind fun i => i.value.float?).getD 1
    if ctx.graph.net.isInputLinked id input || value != 1 then
      let slot ← ctx.assignInputAt id input
      modify fun s => { s with mixWeight := slot }

/-- Emits a closure after everything that it depends on. -/
def generateClosure (ctx : SectionContext) (id : NodeId) (node : Node) : Emit Unit := do
  (List.range node.inputs.length).forM (ctx.emitInput id)
  ctx.assignWeight id node
  ctx.generateNode id
  modify fun s => { s with mixWeight := Stack.invalid }
  modifyFlags fun f => f.union (ctx.closureFlags id node.kind)

/-- The closures that feed a node, in the order of its inputs. -/
def closureSources (ctx : SectionContext) (id : NodeId) : List NodeId :=
  match ctx.graph.net.node? id with
  | none => []
  | some node =>
    node.inputs.zipIdx.filterMap fun (socket, input) =>
      if socket.ty = .closure then (ctx.graph.net.inputLink? id input).map Prod.fst else none

/-- The first closures in `shared` on every way up from the given nodes. -/
def sharedClosures (ctx : SectionContext) (shared : NodeSet) (starts : List NodeId) :
    List NodeId :=
  let next := fun id => if shared.contains id then [] else ctx.closureSources id
  (reachable next (List.range ctx.graph.net.nodes.size) starts).filter shared.contains

/-- An input by name, if something feeds it. -/
def linkedInput? (ctx : SectionContext) (id : NodeId) (node : Node) (name : String) : Option Nat :=
  (node.inputIndex? name).filter (ctx.graph.net.isInputLinked id)

/-- What an input that may be missing depends on. -/
def collectSide (ctx : SectionContext) (id : NodeId) : Option Nat → Emit NodeSet
  | some input => ctx.collect id input none
  | none => return .empty

/-- What both sides of a mix use, and what a side uses that is used outside the mix as well. -/
def sharedNodes (ctx : SectionContext) (root id : NodeId) (side1 side2 : NodeSet) :
    Emit NodeSet := do
  let both := side1.inter side2
  if root = id then return both
  let rootNode ← ofGraph (ctx.graph.require root)
  (List.range rootNode.inputs.length).foldlM (fun shared input => do
    let outside ← ctx.collect root input (some id)
    return (shared.union (outside.inter side1)).union (outside.inter side2)) both

/-- Fills in the target of a jump: the next instruction. -/
def patchJump (position : Nat) : Emit Unit :=
  modify fun s => { s with
    code := s.code.modify position fun i =>
      { i with w1 := Int32.ofNat (s.code.size - position - 1) } }

/-- Marks a combination of closures as done. -/
def finish (ctx : SectionContext) (id : NodeId) : Emit Unit := do
  markDone id
  ctx.clearUsers id

/-- Emits the closures from a node up.  The fuel bounds the depth of the tree. -/
def visit (ctx : SectionContext) (root : NodeId) : Nat → NodeId → Emit Unit
  | 0, _ => return
  | fuel + 1, id => do
    if (← get).closureDone.contains id then return
    let node ← ofGraph (ctx.graph.require id)
    if node.kind.special ≠ .combineClosure then
      markClosure id
      ctx.generateClosure id node
      markDone id
    else
      let first := ctx.linkedInput? id node "Closure1"
      let second := ctx.linkedInput? id node "Closure2"
      if first.isNone && second.isNone then return
      markClosure id
      let child := fun input => (ctx.graph.net.inputLink? id input).map Prod.fst
      let children := [first, second].filterMap fun input => input.bind child
      match ctx.linkedInput? id node "Fac" with
      | none => children.forM fun c => ctx.visit root fuel c
      | some factor =>
        ctx.emitSet (← ctx.collect id factor none)
        let side1 ← ctx.collectSide id first
        let side2 ← ctx.collectSide id second
        let shared ← ctx.sharedNodes root id side1 side2
        if !shared.isEmpty then
          (ctx.sharedClosures shared children).forM fun c => ctx.visit root fuel c
          ctx.emitSet shared
        for (side, jump) in [(first, Opcode.jumpIfOne), (second, Opcode.jumpIfZero)] do
          if let some input := side then
            let slot ← ctx.assignInputAt id factor
            let position := (← get).code.size
            op jump 0 (slotWord slot) 0
            if let some c := child input then ctx.visit root fuel c
            patchJump position
        modify fun s => { s with inputSlots := s.inputSlots.erase (id, factor) }
      ctx.finish id

/-- Emits the closures that feed a terminal. -/
def visitRoot (ctx : SectionContext) (root : NodeId) : Emit Unit :=
  ctx.visit root (ctx.graph.net.nodeCount + 1) root

end Shading.SectionContext
