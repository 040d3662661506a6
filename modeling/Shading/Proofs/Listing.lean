import Shading.Bytecode.Closure
import Shading.Proofs.Machine
import Shading.Proofs.WellFormed

/-!
# Listings

A listing takes a section apart into lines.  A line is an instruction with its data, the node that
it was emitted for, the inputs of that node that it reads and what it writes, each with its slots.
`Compiles` is the table of the lines that each kind of node can have: it ties operands to sockets.
What a line says about slots is what the machine reads off its words (`Compiles.decodes`), so a
listing adds names to the code and nothing else.
-/

namespace Shading

open Machine Instruction

open Machine (access offset_slotWord byte_pack?)
open SectionContext (slotWord noSlot wideRead narrowRead parameterWord)

/-! ## Lines -/

/-- What is written to a run of slots. -/
inductive Written where
  | output (socket : NodeId × Nat)
  /-- The constant of an input that nothing feeds. -/
  | constant (socket : NodeId × Nat)
  /-- The coordinate of a texture whose coordinate is not linked. -/
  | coordinate (id : NodeId)
  /-- The shading state around a bump. -/
  | state
  deriving DecidableEq

/-- What a node reads. -/
inductive Operand where
  | input (i : Nat)
  | coordinate
  | state
  deriving DecidableEq

/-- An instruction with its data, for a node, with what it reads and writes. -/
structure Line where
  node : NodeId
  words : List Instruction
  reads : List (Operand × SlotRange)
  writes : List (Written × SlotRange)

/-- What an operation does besides reading and writing slots: it sets the weight for the closures
after it, it is a closure, or it may jump. -/
inductive Effect where
  | plain | weight | closure | jump
  deriving DecidableEq

def Opcode.effect : Opcode → Effect
  | closureBsdf | closureEmission | closureBackground | closureHoldout | closureVolume => .closure
  | closureSetWeight | closureWeight | emissionWeight => .weight
  | jumpIfZero | jumpIfOne => .jump
  | _ => .plain

def Instruction.effect (i : Instruction) : Effect :=
  ((Opcode.ofWord? i.w0).map Opcode.effect).getD .plain

/-- The effect of a line is that of its first word; the others are data. -/
def Line.effect (l : Line) : Effect := ((l.words[0]?).map Instruction.effect).getD .plain

/-- Something at an offset; nothing at the invalid offset. -/
def placed {α : Type} (x : α) (slot size : Nat) : List (α × SlotRange) :=
  if slot = Stack.invalid then [] else [(x, (slot, size))]

@[simp] lemma map_snd_placed {α : Type} (x : α) (slot size : Nat) :
    (placed x slot size).map Prod.snd = slots slot size := by
  rw [placed, slots]
  split <;> rfl

lemma mem_placed {α : Type} {x : α} {slot size : Nat} {y : α × SlotRange} :
    y ∈ placed x slot size ↔ slot ≠ Stack.invalid ∧ y = (x, (slot, size)) := by
  rw [placed]
  split <;> simp_all

/-- An input that is read from an offset. -/
abbrev reading (i slot size : Nat) : List (Operand × SlotRange) := placed (.input i) slot size

/-- An output that is written to an offset. -/
abbrev writing (socket : NodeId × Nat) (slot size : Nat) : List (Written × SlotRange) :=
  placed (.output socket) slot size

/-- The words that load the constant of an input. -/
def constantWords (slot : Nat) (socket : Input) : List Instruction :=
  if socket.ty = .int then [.op .valueF (socket.value.int?.getD 0) (Int32.ofNat slot) 0]
  else if socket.ty.isVec3 then
    [.op .valueV (Int32.ofNat slot) 0 0, .vec3 (socket.value.vec3?.getD Vec3.zero)]
  else [.op .valueF (floatWord (socket.value.float?.getD 0)) (Int32.ofNat slot) 0]

/-- Instructions that ask the machine for something and put it into a slot. -/
inductive Query : List Instruction → Nat → Nat → Prop
  | vector {slot : Nat} (w : Int32) : Query [.op .attr w (slotWord slot) wideRead] slot 3
  | number {slot : Nat} (w : Int32) : Query [.op .attr w (slotWord slot) narrowRead] slot 1
  | geometry {slot query : Nat} (hq : query < 3) :
      Query [.op .geometry (Int32.ofNat query) (slotWord slot) 0] slot 3
  | backfacing {slot : Nat} : Query [.op .geometry (Int32.ofNat 3) (slotWord slot) 0] slot 1
  | lightPath {slot : Nat} (w : Int32) : Query [.op .lightPath w (slotWord slot) 0] slot 1
  | coordinate {slot : Nat} (w : Int32) : Query [.op .texCoord w (slotWord slot) 0] slot 3
  | transformed {slot : Nat} (w : Int32) {rows : List Instruction} (hrows : rows.length = 3) :
      Query (.op .texCoord w (slotWord slot) 1 :: rows) slot 3

/-- Kinds whose outputs come from the machine alone. -/
def NodeKind.asksMachine : NodeKind → Bool
  | namedAttribute _ | textureCoordinate .. | geometry | lightPath => true
  | _ => false

/-- Kinds that read a coordinate. -/
def NodeKind.isTexture : NodeKind → Bool
  | imageTexture .. | checkerTexture => true
  | _ => false

/-- The operand for the coordinate of a texture. -/
def SectionContext.textureOperand (ctx : SectionContext) (n : NodeId) : Operand :=
  if (ctx.link? n 0).isSome then .input 0 else .coordinate

/-- An operand that has a slot under a condition only. -/
def SlotIf (c : Bool) (slot : Nat) : Prop := if c then slot < Stack.size else slot = Stack.invalid

lemma SlotIf.le {c : Bool} {slot : Nat} (h : SlotIf c slot) : slot ≤ 255 := by
  unfold SlotIf at h
  split at h
  · exact h.le
  · exact Nat.le_of_eq h

/-- The input that holds the weight of a closure in the section, with its slot.  A weight that is the
constant one has none, and neither has a closure without such an input. -/
def SectionContext.WeighsAt (ctx : SectionContext) (n : NodeId) (node : Node) (i slot : Nat) : Prop :=
  match node.weightIndex? (ctx.entry == .volume) with
  | none => slot = Stack.invalid
  | some input => i = input ∧ SlotIf (ctx.graph.net.isInputLinked n input ||
      ((node.inputs[input]?).bind fun x => x.value.float?).getD 1 != 1) slot

lemma SectionContext.WeighsAt.le {ctx : SectionContext} {n : NodeId} {node : Node} {i slot : Nat}
    (h : ctx.WeighsAt n node i slot) : slot ≤ 255 := by
  unfold WeighsAt at h
  split at h
  · exact Nat.le_of_eq h
  · exact h.2.le

/-- The color of a closure that reads none. -/
def SectionContext.SetsColor (ctx : SectionContext) (n : NodeId) (node : Node) (v : Vec3) : Prop :=
  if node.kind = .holdout then v = Vec3.one
  else ctx.link? n 0 = none ∧ if node.kind = .emission ∨ node.kind = .background then
    ctx.link? n 1 = none ∧ v = (node.vec3 "Color").scale (node.float "Strength")
  else v = node.vec3 "Color"

/-- The lines that nodes of each kind can have. -/
inductive Compiles (ctx : SectionContext) : Line → Prop
  | constant {n : NodeId} {i slot size : Nat} {socket : Input}
      (hi : ctx.graph.net.input? n i = some socket) (hl : ctx.link? n i = none)
      (hsize : socket.ty.stackSize? = some size) (hpos : 0 < size) (hs : slot ≤ 255) :
      Compiles ctx ⟨n, constantWords slot socket, [], placed (.constant (n, i)) slot size⟩
  | value {n : NodeId} {v : Float32} {slot : Nat} (hk : ctx.graph.net.kind? n = some (.value v))
      (hs : slot ≤ 255) :
      Compiles ctx ⟨n, [.op .valueF (floatWord v) (slotWord slot) 0], [], writing (n, 0) slot 1⟩
  | rgb {n : NodeId} {v : Vec3} {slot : Nat} (hk : ctx.graph.net.kind? n = some (.rgb v))
      (hs : slot ≤ 255) :
      Compiles ctx ⟨n, [.op .valueV (slotWord slot) 0 0, .vec3 v], [], writing (n, 0) slot 3⟩
  | math {n : NodeId} {f : MathOp} {clamp : Bool} {a b slot : Nat} {w : Int32}
      (hk : ctx.graph.net.kind? n = some (.math f clamp))
      (hp : pack? a b clamp.toNat 0 = some w) (hs : slot ≤ 255) :
      Compiles ctx ⟨n, [.op .math (Int32.ofNat (MathOp.all.idxOf f)) w (slotWord slot)],
        reading 0 a 1 ++ reading 1 b 1, writing (n, 0) slot 1⟩
  | vectorMath {n : NodeId} {f : VectorMathOp} {a b value vector : Nat} {w : Int32}
      (hk : ctx.graph.net.kind? n = some (.vectorMath f))
      (hp : pack? a b value vector = some w) :
      Compiles ctx ⟨n, [.op .vectorMath (Int32.ofNat (VectorMathOp.all.idxOf f)) w 0],
        reading 0 a 3 ++ reading 1 b 3,
        writing (n, 0) value 1 ++ writing (n, 1) vector 3⟩
  | mixRgb {n : NodeId} {blend : MixBlend} {clamp : Bool} {factor a b slot : Nat}
      (hk : ctx.graph.net.kind? n = some (.mixRgb blend clamp))
      (hf : factor ≤ 255) (ha : a ≤ 255) (hb : b ≤ 255) (hs : slot ≤ 255) :
      Compiles ctx ⟨n, [.op .mix (slotWord factor) (slotWord a) (slotWord b),
          .op .mix (Int32.ofNat (MixBlend.all.idxOf blend)) (boolWord clamp) (slotWord slot)],
        reading 0 factor 1 ++ reading 1 a 3 ++ reading 2 b 3,
        writing (n, 0) slot 3⟩
  | query {n : NodeId} {k : NodeKind} {o slot size : Nat} {words : List Instruction}
      {output : Output} (hk : ctx.graph.net.kind? n = some k) (hq : k.asksMachine = true)
      (ho : k.outputs[o]? = some output) (hsize : output.ty.stackSize? = some size)
      (hw : Query words slot size) (hs : slot ≤ 255) :
      Compiles ctx ⟨n, words, [], writing (n, o) slot size⟩
  | coordinate {n : NodeId} {k : NodeKind} {slot : Nat} {words : List Instruction}
      (hk : ctx.graph.net.kind? n = some k) (ht : k.isTexture = true)
      (hw : Query words slot 3) (hs : slot ≤ 255) :
      Compiles ctx ⟨n, words, [], placed (.coordinate n) slot 3⟩
  | image {n : NodeId} {image : UInt32} {file space : String} {at_ color alpha flags : Nat}
      {w : Int32} (hk : ctx.graph.net.kind? n = some (.imageTexture image file space))
      (hp : pack? at_ color alpha flags = some w) :
      Compiles ctx ⟨n, [.op .texImage image.toInt32 w 0], placed (ctx.textureOperand n) at_ 3,
        writing (n, 0) color 3 ++ writing (n, 1) alpha 1⟩
  | checker {n : NodeId} {at_ a b scale color factor : Nat} {w v : Int32}
      (hk : ctx.graph.net.kind? n = some .checkerTexture)
      (hp : pack? at_ a b scale = some w)
      (hv : pack? color factor 0 0 = some v) :
      Compiles ctx ⟨n, [.op .texChecker w v 0],
        placed (ctx.textureOperand n) at_ 3 ++ reading 1 a 3 ++ reading 2 b 3 ++ reading 3 scale 1,
        writing (n, 0) color 3 ++ writing (n, 1) factor 1⟩
  | ambientOcclusion {n : NodeId} {samples : UInt32} {near : Bool}
      {color distance normal colorOut factor : Nat} {w v : Int32}
      (hk : ctx.graph.net.kind? n = some (.ambientOcclusion samples near))
      (hp : pack? near.toNat color distance normal = some w)
      (hv : pack? colorOut factor 0 0 = some v) :
      Compiles ctx ⟨n, [.op .ambientOcclusion w v samples.toInt32],
        reading 0 color 3 ++ reading 1 distance 1 ++ reading 2 normal 3,
        writing (n, 0) colorOut 3 ++ writing (n, 1) factor 1⟩
  | setWeight {n : NodeId} {node : Node} {v : Vec3} (hn : ctx.graph.net.node? n = some node)
      (hc : node.kind.isClosure = true) (hv : ctx.SetsColor n node v) :
      Compiles ctx ⟨n, [.op .closureSetWeight (floatWord v.x)
        (floatWord v.y) (floatWord v.z)], [], []⟩
  | color {n : NodeId} {k : NodeKind} {slot : Nat} (hk : ctx.graph.net.kind? n = some k)
      (hc : k.isClosure = true) (hl : (ctx.link? n 0).isSome = true) (hs : slot < Stack.size) :
      Compiles ctx ⟨n, [.op .closureWeight (slotWord slot) 0 0], reading 0 slot 3, []⟩
  | scatter {n : NodeId} {node : Node} {closure : ClosureType} {rough normal weight i : Nat}
      {w : Int32} (hn : ctx.graph.net.node? n = some node)
      (hc : (node.kind, closure) ∈ [(.diffuseBsdf, .diffuse), (.glossyBsdf, .glossy)])
      (hr : rough < Stack.size) (hm : SlotIf (ctx.link? n 2).isSome normal)
      (hw : ctx.WeighsAt n node i weight)
      (hp : pack? closure.code rough Stack.invalid weight = some w) :
      Compiles ctx ⟨n, [.op .closureBsdf w (parameterWord node (some "Roughness")) 0,
          ⟨slotWord normal, noSlot, noSlot, noSlot⟩],
        reading 1 rough 1 ++ reading i weight 1 ++ reading 2 normal 3, []⟩
  | transparent {n : NodeId} {node : Node} {weight i : Nat} {w : Int32}
      (hn : ctx.graph.net.node? n = some node) (hk : node.kind = .transparentBsdf)
      (hw : ctx.WeighsAt n node i weight)
      (hp : pack? ClosureType.transparent.code Stack.invalid Stack.invalid weight = some w) :
      Compiles ctx ⟨n, [.op .closureBsdf w 0 0, ⟨noSlot, noSlot, noSlot, noSlot⟩],
        reading i weight 1, []⟩
  | subsurface {n : NodeId} {node : Node} {scale radius normal weight i : Nat} {w : Int32}
      (hn : ctx.graph.net.node? n = some node) (hk : node.kind = .subsurfaceScattering)
      (ha : scale < Stack.size) (hb : radius < Stack.size)
      (hm : SlotIf (ctx.link? n 3).isSome normal) (hw : ctx.WeighsAt n node i weight)
      (hp : pack? ClosureType.bssrdf.code scale radius weight = some w) :
      Compiles ctx ⟨n, [.op .closureBsdf w (parameterWord node (some "Scale"))
          (parameterWord node (some "Radius")), ⟨slotWord normal, noSlot, noSlot, noSlot⟩],
        reading 1 scale 1 ++ reading 2 radius 3 ++ reading i weight 1 ++ reading 3 normal 3, []⟩
  | emissionWeight {n : NodeId} {k : NodeKind} {color strength : Nat}
      (hk : ctx.graph.net.kind? n = some k) (hc : k = .emission ∨ k = .background)
      (hl : ((ctx.link? n 0).isSome || (ctx.link? n 1).isSome) = true)
      (ha : color < Stack.size) (hb : strength < Stack.size) :
      Compiles ctx ⟨n, [.op .emissionWeight (slotWord color) (slotWord strength) 0],
        reading 0 color 3 ++ reading 1 strength 1, []⟩
  | light {n : NodeId} {node : Node} {opcode : Opcode} {weight i : Nat}
      (hn : ctx.graph.net.node? n = some node)
      (hc : (node.kind, opcode) ∈ [(.emission, .closureEmission), (.background, .closureBackground),
        (.holdout, .closureHoldout)])
      (hw : ctx.WeighsAt n node i weight) :
      Compiles ctx ⟨n, [.op opcode (slotWord weight) 0 0], reading i weight 1, []⟩
  | absorption {n : NodeId} {node : Node} {density weight i : Nat} {w : Int32}
      (hn : ctx.graph.net.node? n = some node) (hk : node.kind = .absorptionVolume)
      (hd : density < Stack.size) (hw : ctx.WeighsAt n node i weight)
      (hp : pack? ClosureType.volumeAbsorption.code density Stack.invalid weight = some w) :
      Compiles ctx ⟨n, [.op .closureVolume w (parameterWord node (some "Density")) 0],
        reading 1 density 1 ++ reading i weight 1, []⟩
  | volume {n : NodeId} {node : Node} {density anisotropy weight i : Nat} {w : Int32}
      (hn : ctx.graph.net.node? n = some node) (hk : node.kind = .scatterVolume)
      (hd : density < Stack.size) (ha : anisotropy < Stack.size)
      (hw : ctx.WeighsAt n node i weight)
      (hp : pack? ClosureType.volumeScatter.code density anisotropy weight = some w) :
      Compiles ctx ⟨n, [.op .closureVolume w (parameterWord node (some "Density"))
          (parameterWord node (some "Anisotropy"))],
        reading 1 density 1 ++ reading 2 anisotropy 1 ++ reading i weight 1, []⟩
  | splitWeight {n : NodeId} {factor weight first second : Nat} {w : Int32}
      (hk : ctx.graph.net.kind? n = some .mixClosureWeight)
      (hp : pack? factor weight first second = some w) :
      Compiles ctx ⟨n, [.op .mixClosure w 0 0],
        reading 1 factor 1 ++ reading 0 weight 1,
        writing (n, 0) first 1 ++ writing (n, 1) second 1⟩
  | bump {n : NodeId} {invert space : Bool} {normal distance height strength slot : Nat}
      {w v : Int32} (hk : ctx.graph.net.kind? n = some (.bump invert space))
      (hp : pack? normal distance invert.toNat space.toNat = some w)
      (hv : pack? height strength 0 0 = some v) (hs : slot ≤ 255) :
      Compiles ctx ⟨n, [.op .setBump w v (slotWord slot)],
        reading 3 normal 3 ++ reading 1 distance 1 ++ reading 2 height 1 ++ reading 0 strength 1,
        writing (n, 0) slot 3⟩
  | bumpFromDisplacement {n : NodeId} {space : Bool} {displacement slot : Nat}
      (hk : ctx.graph.net.kind? n = some (.bumpFromDisplacement space))
      (hd : displacement ≤ 255) (hs : slot ≤ 255) :
      Compiles ctx ⟨n, [.op .bumpFromDisplacement (slotWord displacement) (slotWord slot)
          (boolWord space)],
        reading 0 displacement 3, writing (n, 0) slot 3⟩
  | displacement {n : NodeId} {space : Bool} {height midlevel scale normal slot : Nat} {w : Int32}
      (hk : ctx.graph.net.kind? n = some (.displacement space))
      (hp : pack? height midlevel scale normal = some w) (hs : slot ≤ 255) :
      Compiles ctx ⟨n, [.op .displacement w (slotWord slot) (boolWord space)],
        reading 0 height 1 ++ reading 1 midlevel 1 ++ reading 2 scale 1 ++ reading 3 normal 3,
        writing (n, 0) slot 3⟩
  | terminal {n : NodeId} {opcode : Opcode} {i slot : Nat}
      (hk : ctx.graph.net.kind? n = some .output)
      (hc : (opcode, i) ∈ [(.setDisplacement, 2), (.closureSetNormal, 3)]) (hs : slot ≤ 255) :
      Compiles ctx ⟨n, [.op opcode (slotWord slot) 0 0], reading i slot 3, []⟩
  | jump {n : NodeId} {opcode : Opcode} {slot : Nat} (distance : Int32)
      (hk : ctx.graph.net.kind? n = some .mixClosure)
      (hc : opcode = .jumpIfOne ∨ opcode = .jumpIfZero) (hs : slot ≤ 255) :
      Compiles ctx ⟨n, [.op opcode distance (slotWord slot) 0], reading 0 slot 1, []⟩
  | saveState {n : NodeId} {slot : Nat} (hk : ctx.graph.net.kind? n = some .output)
      (hs : slot ≤ 255) :
      Compiles ctx ⟨n, [.op .enterBumpEval (slotWord slot) 0 0], [], placed .state slot 4⟩
  | restoreState {n : NodeId} {slot : Nat} (hk : ctx.graph.net.kind? n = some .output)
      (hs : slot ≤ 255) :
      Compiles ctx ⟨n, [.op .leaveBumpEval (slotWord slot) 0 0], placed .state slot 4, []⟩
  | stop {n : NodeId} (hk : ctx.graph.net.kind? n = some .output) :
      Compiles ctx ⟨n, [.op .stop 0 0 0], [], []⟩

/-! ## What the machine makes of a line -/

/-- The first word of a line is an operation, and the machine reads off it how many words the line
has and which slots it reads and writes. -/
structure Line.Decodes (line : Line) (i : Instruction) (o : Opcode) : Prop where
  head : line.words[0]? = some i
  opcode : Opcode.ofWord? i.w0 = some o
  width : width i o = line.words.length
  access : access i ((line.words[1]?).getD ⟨0, 0, 0, 0⟩) o =
    ⟨line.reads.map Prod.snd, line.writes.map Prod.snd⟩

lemma decodes_op {n : NodeId} {o : Opcode} {a b c : Int32} {data : List Instruction}
    {reads : List (Operand × SlotRange)} {writes : List (Written × SlotRange)}
    (hwidth : width ⟨o.word, a, b, c⟩ o = data.length + 1)
    (haccess : access ⟨o.word, a, b, c⟩ ((data[0]?).getD ⟨0, 0, 0, 0⟩) o =
      ⟨reads.map Prod.snd, writes.map Prod.snd⟩) :
    ∃ i x, Line.Decodes ⟨n, .op o a b c :: data, reads, writes⟩ i x :=
  ⟨_, o, rfl, Opcode.ofWord?_word o, hwidth, haccess⟩

lemma slots_invalid (size : Nat) : slots Stack.invalid size = [] := if_pos rfl

lemma offset_noSlot : offset noSlot = Stack.invalid := offset_slotWord le_rfl

lemma Query.decodes {words : List Instruction} {slot size : Nat} (h : Query words slot size)
    (hs : slot ≤ 255) (n : NodeId) (x : Written) :
    ∃ i o, Line.Decodes ⟨n, words, [], placed x slot size⟩ i o := by
  have hoff := offset_slotWord hs
  cases h with
  | vector w => exact decodes_op rfl (by simp [access, hoff, show wideRead ≠ narrowRead by decide])
  | number w | lightPath w => exact decodes_op rfl (by simp [access, hoff])
  | @geometry _ query hq =>
    have hne : Int32.ofNat query ≠ 3 := by interval_cases query <;> decide
    exact decodes_op rfl (by simp [access, hoff, hne])
  | backfacing => exact decodes_op rfl (by simp [access, hoff, show Int32.ofNat 3 = 3 by decide])
  | coordinate w => exact decodes_op (by simp [width]) (by simp [access, hoff])
  | transformed w hrows =>
    refine decodes_op ?_ (by simp [access, hoff])
    simp [width, hrows, show (1 : Int32) ≠ 0 by decide]

/-- The constant of an input is a number or a vector, as its type takes one slot or three. -/
lemma constantWords_cases {socket : Input} {size : Nat} (slot : Nat)
    (hsize : socket.ty.stackSize? = some size) (hpos : 0 < size) :
    (∃ w, size = 1 ∧ constantWords slot socket = [.op .valueF w (Int32.ofNat slot) 0]) ∨
      ∃ v, size = 3 ∧ constantWords slot socket = [.op .valueV (Int32.ofNat slot) 0 0, .vec3 v] := by
  unfold constantWords
  cases hty : socket.ty <;> simp_all [SocketType.stackSize?, SocketType.isVec3]
  all_goals exact ⟨_, rfl⟩

/-- Every line says of its slots what the machine reads off its words. -/
theorem Compiles.decodes {ctx : SectionContext} {line : Line} (h : Compiles ctx line) :
    ∃ i o, line.Decodes i o := by
  cases h with
  | constant hi hl hsize hpos hs =>
    have hoff := offset_slotWord hs
    rw [slotWord] at hoff
    obtain ⟨w, rfl, hw⟩ | ⟨v, rfl, hw⟩ := constantWords_cases _ hsize hpos <;>
      exact hw ▸ decodes_op rfl (by simp [access, hoff])
  | value hk hs | rgb hk hs | saveState hk hs | restoreState hk hs =>
    exact decodes_op rfl (by simp [access, offset_slotWord hs])
  | math hk hp hs =>
    obtain ⟨h0, h1, _, _⟩ := byte_pack? hp
    exact decodes_op rfl (by simp [access, h0, h1, offset_slotWord hs])
  | vectorMath hk hp | splitWeight hk hp =>
    obtain ⟨h0, h1, h2, h3⟩ := byte_pack? hp
    exact decodes_op rfl (by simp [access, h0, h1, h2, h3])
  | mixRgb hk hf ha hb hs =>
    exact decodes_op rfl (by simp [access, op, offset_slotWord hf, offset_slotWord ha,
      offset_slotWord hb, offset_slotWord hs])
  | query hk hq ho hsize hw hs => exact hw.decodes hs _ _
  | coordinate hk ht hw hs => exact hw.decodes hs _ _
  | image hk hp =>
    obtain ⟨h0, h1, h2, _⟩ := byte_pack? hp
    exact decodes_op rfl (by simp [access, h0, h1, h2])
  | checker hk hp hv =>
    obtain ⟨h0, h1, h2, h3⟩ := byte_pack? hp
    obtain ⟨g0, g1, _, _⟩ := byte_pack? hv
    exact decodes_op rfl (by simp [access, h0, h1, h2, h3, g0, g1])
  | ambientOcclusion hk hp hv =>
    obtain ⟨_, h1, h2, h3⟩ := byte_pack? hp
    obtain ⟨g0, g1, _, _⟩ := byte_pack? hv
    exact decodes_op rfl (by simp [access, h1, h2, h3, g0, g1])
  | setWeight | stop => exact decodes_op rfl rfl
  | color hk hc hl hs => exact decodes_op rfl (by simp [access, offset_slotWord hs.le])
  | scatter hn hc hr hm hw hp =>
    obtain ⟨_, h1, h2, h3⟩ := byte_pack? hp
    exact decodes_op rfl (by simp [access, h1, h2, h3, offset_slotWord hm.le, slots_invalid])
  | transparent hn hk hw hp | absorption hn hk hd hw hp | volume hn hk hd ha hw hp =>
    obtain ⟨_, h1, h2, h3⟩ := byte_pack? hp
    exact decodes_op rfl (by simp [access, h1, h2, h3, offset_noSlot, slots_invalid])
  | subsurface hn hk ha hb hm hw hp =>
    obtain ⟨_, h1, h2, h3⟩ := byte_pack? hp
    exact decodes_op rfl (by simp [access, h1, h2, h3, offset_slotWord hm.le])
  | emissionWeight hk hc hl ha hb =>
    exact decodes_op rfl (by simp [access, offset_slotWord ha.le, offset_slotWord hb.le])
  | @light n node opcode weight i hn hc hw =>
    have hop : opcode = .closureEmission ∨ opcode = .closureBackground ∨
        opcode = .closureHoldout := by
      simp only [List.mem_cons, Prod.mk.injEq, List.not_mem_nil, or_false] at hc
      tauto
    obtain rfl | rfl | rfl := hop <;>
      exact decodes_op rfl (by simp [access, offset_slotWord hw.le])
  | bump hk hp hv hs =>
    obtain ⟨h0, h1, _, _⟩ := byte_pack? hp
    obtain ⟨g0, g1, _, _⟩ := byte_pack? hv
    exact decodes_op rfl (by simp [access, h0, h1, g0, g1, offset_slotWord hs])
  | bumpFromDisplacement hk hd hs =>
    exact decodes_op rfl (by simp [access, offset_slotWord hd, offset_slotWord hs])
  | displacement hk hp hs =>
    obtain ⟨h0, h1, h2, h3⟩ := byte_pack? hp
    exact decodes_op rfl (by simp [access, h0, h1, h2, h3, offset_slotWord hs])
  | @terminal n opcode i slot hk hc hs =>
    have hop : opcode = .setDisplacement ∨ opcode = .closureSetNormal := by
      simp only [List.mem_cons, Prod.mk.injEq, List.not_mem_nil, or_false] at hc
      tauto
    obtain rfl | rfl := hop <;>
      exact decodes_op rfl (by simp [access, offset_slotWord hs])
  | jump distance hk hc hs =>
    obtain rfl | rfl := hc <;>
      exact decodes_op rfl (by simp [access, offset_slotWord hs])

lemma Compiles.words_ne_nil {ctx : SectionContext} {line : Line} (h : Compiles ctx line) :
    line.words ≠ [] := by
  obtain ⟨i, o, hd⟩ := h.decodes
  intro hnil
  have := hd.head
  simp [hnil] at this

/-- A line writes outputs of its own node only. -/
lemma Compiles.node_of_output {ctx : SectionContext} {line : Line} (h : Compiles ctx line)
    {t : NodeId × Nat} {r : SlotRange} (ht : (Written.output t, r) ∈ line.writes) :
    t.1 = line.node := by
  cases h <;> simp only [List.mem_append, mem_placed, List.not_mem_nil, Prod.mk.injEq, reduceCtorEq,
    Written.output.injEq, false_and, and_false] at ht <;> aesop

end Shading
