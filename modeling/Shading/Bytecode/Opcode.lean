import Shading.Shader.Program
import Shading.Vec

/-!
# Opcodes and operands

An instruction is four words.  The first word of most instructions is an opcode, the position of
the operation in `Opcode.all`; some operations are followed by instructions that hold data only.

Small operands are packed four to a word, the first in the low byte.  A number stands in a word by
its bit pattern.
-/

namespace Shading

/-- An operation of the machine. -/
inductive Opcode where
  | stop | shaderJump | closureBsdf | closureEmission | closureBackground | closureHoldout
  | closureVolume | closureSetWeight | closureWeight | emissionWeight | closureSetNormal
  | mixClosure | jumpIfZero | jumpIfOne | valueF | valueV | attr | geometry | texCoord | lightPath
  | math | vectorMath | mix | texImage | texChecker | ambientOcclusion | setBump
  | bumpFromDisplacement | displacement | setDisplacement | enterBumpEval | leaveBumpEval
  deriving DecidableEq, Repr

namespace Opcode

/-- All operations, in the order of their numbers. -/
def all : List Opcode :=
  [stop, shaderJump, closureBsdf, closureEmission, closureBackground, closureHoldout,
    closureVolume, closureSetWeight, closureWeight, emissionWeight, closureSetNormal, mixClosure,
    jumpIfZero, jumpIfOne, valueF, valueV, attr, geometry, texCoord, lightPath, math, vectorMath,
    mix, texImage, texChecker, ambientOcclusion, setBump, bumpFromDisplacement, displacement,
    setDisplacement, enterBumpEval, leaveBumpEval]

def name : Opcode → String
  | stop => "End"
  | shaderJump => "ShaderJump"
  | closureBsdf => "ClosureBsdf"
  | closureEmission => "ClosureEmission"
  | closureBackground => "ClosureBackground"
  | closureHoldout => "ClosureHoldout"
  | closureVolume => "ClosureVolume"
  | closureSetWeight => "ClosureSetWeight"
  | closureWeight => "ClosureWeight"
  | emissionWeight => "EmissionWeight"
  | closureSetNormal => "ClosureSetNormal"
  | mixClosure => "MixClosure"
  | jumpIfZero => "JumpIfZero"
  | jumpIfOne => "JumpIfOne"
  | valueF => "ValueF"
  | valueV => "ValueV"
  | attr => "Attr"
  | geometry => "Geometry"
  | texCoord => "TexCoord"
  | lightPath => "LightPath"
  | math => "Math"
  | vectorMath => "VectorMath"
  | mix => "Mix"
  | texImage => "TexImage"
  | texChecker => "TexChecker"
  | ambientOcclusion => "AmbientOcclusion"
  | setBump => "SetBump"
  | bumpFromDisplacement => "BumpFromDisplacement"
  | displacement => "Displacement"
  | setDisplacement => "SetDisplacement"
  | enterBumpEval => "EnterBumpEval"
  | leaveBumpEval => "LeaveBumpEval"

/-- The number of the operation. -/
def word (op : Opcode) : Int32 := Int32.ofNat (all.idxOf op)

def ofWord? (w : Int32) : Option Opcode := if w < 0 then none else all[w.toInt.toNat]?

theorem ofWord?_word (op : Opcode) : ofWord? op.word = some op := by cases op <;> decide

end Opcode

/-- The kinds of closure that scatter light. -/
inductive ClosureType where
  | diffuse | glossy | transparent | bssrdf | volumeAbsorption | volumeScatter
  deriving DecidableEq, Repr

/-- The number of a closure in the first byte of its operands. -/
def ClosureType.code : ClosureType → Nat
  | diffuse => 1
  | glossy => 2
  | transparent => 3
  | bssrdf => 4
  | volumeAbsorption => 5
  | volumeScatter => 6

namespace Instruction

/-- An operation with its operands. -/
def op (opcode : Opcode) (a b c : Int32) : Instruction := ⟨opcode.word, a, b, c⟩

def floatWord (x : Float32) : Int32 := x.toBits.toInt32

def wordFloat (w : Int32) : Float32 := Float32.ofBits w.toUInt32

/-- Three numbers as data. -/
def vec3 (v : Vec3) : Instruction := ⟨floatWord v.x, floatWord v.y, floatWord v.z, 0⟩

/-- Four numbers as data. -/
def vec4 (v : Vector Float32 4) : Instruction :=
  ⟨floatWord (v.get ⟨0, by decide⟩), floatWord (v.get ⟨1, by decide⟩),
    floatWord (v.get ⟨2, by decide⟩), floatWord (v.get ⟨3, by decide⟩)⟩

def boolWord (b : Bool) : Int32 := if b then 1 else 0

/-- Packs four operands into a word, the first in the low byte; `none` if one exceeds a byte. -/
def pack? (x y z w : Nat) : Option Int32 :=
  if x ≤ 255 ∧ y ≤ 255 ∧ z ≤ 255 ∧ w ≤ 255 then
    some (UInt32.ofNat (x + y * 256 + z * 65536 + w * 16777216)).toInt32
  else none

/-- The four operands that are packed into a word. -/
def unpack (word : Int32) : List Nat :=
  let v := word.toUInt32.toNat
  [v % 256, v / 256 % 256, v / 65536 % 256, v / 16777216 % 256]

theorem unpack_pack? {x y z w : Nat} {word : Int32} (h : pack? x y z w = some word) :
    unpack word = [x, y, z, w] := by
  unfold pack? at h
  split at h
  case isTrue hb =>
    obtain ⟨hx, hy, hz, hw⟩ := hb
    cases h
    have e : (UInt32.ofNat (x + y * 256 + z * 65536 + w * 16777216)).toInt32.toUInt32.toNat =
        x + y * 256 + z * 65536 + w * 16777216 := by
      simp only [UInt32.toUInt32_toInt32, UInt32.toNat_ofNat']
      omega
    simp only [unpack, e]
    congr 1
    · omega
    · congr 1
      · omega
      · congr 1
        · omega
        · congr 1
          omega
  case isFalse => simp at h

end Instruction

end Shading
