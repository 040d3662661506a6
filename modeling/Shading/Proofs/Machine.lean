import Mathlib.Tactic
import Shading.Bytecode.Emit

/-!
# The machine that runs sections

What an instruction does to the stack is read off its words alone: which runs of slots it reads,
which it writes, how many words of data follow it, and where the machine goes next.  The machine
here computes nothing.  What the slots hold is given anew at every step, so a jump can go either
way each time it is reached, and what holds of all runs holds of every choice at every jump.
-/

namespace Shading

lemma modify_append_cons {α : Type} (f : α → α) (xs : List α) (y : α) (ys : List α) :
    (xs ++ y :: ys).modify xs.length f = xs ++ f y :: ys := by
  induction xs with
  | nil => rfl
  | cons x xs ih => rw [List.cons_append, List.length_cons, List.modify_succ_cons, ih,
      List.cons_append]

/-- A run of slots: where it begins and how long it is. -/
abbrev SlotRange : Type := Nat × Nat

namespace SlotRange

/-- Whether a slot belongs to the run. -/
def Has (r : SlotRange) (k : Nat) : Prop := Stack.covers r.1 r.2 k = true

instance (r : SlotRange) : DecidablePred r.Has := fun k =>
  inferInstanceAs (Decidable (Stack.covers r.1 r.2 k = true))

/-- Two runs without a common slot. -/
def Apart (r t : SlotRange) : Prop := ∀ k, r.Has k → ¬ t.Has k

end SlotRange

namespace Machine

/-! ## Operands -/

/-- The slots at an operand; the invalid offset stands for none. -/
def slots (offset size : Nat) : List SlotRange :=
  if offset = Stack.invalid then [] else [(offset, size)]

/-- A word that holds one offset. -/
def offset (w : Int32) : Nat := w.toUInt32.toNat

/-- One of the four offsets that are packed into a word. -/
def byte (w : Int32) (n : Nat) : Nat := ((Instruction.unpack w)[n]?).getD Stack.invalid

lemma offset_slotWord {slot : Nat} (h : slot ≤ 255) :
    offset (SectionContext.slotWord slot) = slot := by
  have e : (SectionContext.slotWord slot).toUInt32 = UInt32.ofNat slot := rfl
  rw [offset, e, UInt32.toNat_ofNat']
  omega

lemma byte_pack? {x y z w : Nat} {word : Int32} (h : Instruction.pack? x y z w = some word) :
    byte word 0 = x ∧ byte word 1 = y ∧ byte word 2 = z ∧ byte word 3 = w := by
  simp [byte, Instruction.unpack_pack? h]

/-! ## Instructions -/

/-- The slots that an instruction reads and those that it writes. -/
structure Access where
  reads : List SlotRange := []
  writes : List SlotRange := []

/-- What an instruction does to the stack; some have operands in the word after them. -/
def access (i data : Instruction) : Opcode → Access
  | .stop | .shaderJump | .closureSetWeight => {}
  | .closureBsdf =>
    { reads := slots (byte i.w1 1) 1 ++ slots (byte i.w1 2) 3 ++ slots (byte i.w1 3) 1 ++
        slots (offset data.w0) 3 }
  | .closureEmission | .closureBackground | .closureHoldout => { reads := slots (offset i.w1) 1 }
  | .closureVolume =>
    { reads := slots (byte i.w1 1) 1 ++ slots (byte i.w1 2) 1 ++ slots (byte i.w1 3) 1 }
  | .closureWeight | .closureSetNormal | .setDisplacement => { reads := slots (offset i.w1) 3 }
  | .emissionWeight => { reads := slots (offset i.w1) 3 ++ slots (offset i.w2) 1 }
  | .mixClosure =>
    { reads := slots (byte i.w1 0) 1 ++ slots (byte i.w1 1) 1
      writes := slots (byte i.w1 2) 1 ++ slots (byte i.w1 3) 1 }
  | .jumpIfZero | .jumpIfOne => { reads := slots (offset i.w2) 1 }
  | .valueF | .lightPath => { writes := slots (offset i.w2) 1 }
  | .valueV => { writes := slots (offset i.w1) 3 }
  | .attr => { writes := slots (offset i.w2) (if i.w3 = SectionContext.narrowRead then 1 else 3) }
  | .geometry => { writes := slots (offset i.w2) (if i.w1 = 3 then 1 else 3) }
  | .texCoord => { writes := slots (offset i.w2) 3 }
  | .math =>
    { reads := slots (byte i.w2 0) 1 ++ slots (byte i.w2 1) 1
      writes := slots (offset i.w3) 1 }
  | .vectorMath =>
    { reads := slots (byte i.w2 0) 3 ++ slots (byte i.w2 1) 3
      writes := slots (byte i.w2 2) 1 ++ slots (byte i.w2 3) 3 }
  | .mix =>
    { reads := slots (offset i.w1) 1 ++ slots (offset i.w2) 3 ++ slots (offset i.w3) 3
      writes := slots (offset data.w3) 3 }
  | .texImage =>
    { reads := slots (byte i.w2 0) 3
      writes := slots (byte i.w2 1) 3 ++ slots (byte i.w2 2) 1 }
  | .texChecker =>
    { reads := slots (byte i.w1 0) 3 ++ slots (byte i.w1 1) 3 ++ slots (byte i.w1 2) 3 ++
        slots (byte i.w1 3) 1
      writes := slots (byte i.w2 0) 3 ++ slots (byte i.w2 1) 1 }
  | .ambientOcclusion =>
    { reads := slots (byte i.w1 1) 3 ++ slots (byte i.w1 2) 1 ++ slots (byte i.w1 3) 3
      writes := slots (byte i.w2 0) 3 ++ slots (byte i.w2 1) 1 }
  | .setBump =>
    { reads := slots (byte i.w1 0) 3 ++ slots (byte i.w1 1) 1 ++ slots (byte i.w2 0) 1 ++
        slots (byte i.w2 1) 1
      writes := slots (offset i.w3) 3 }
  | .bumpFromDisplacement => { reads := slots (offset i.w1) 3, writes := slots (offset i.w2) 3 }
  | .displacement =>
    { reads := slots (byte i.w1 0) 1 ++ slots (byte i.w1 1) 1 ++ slots (byte i.w1 2) 1 ++
        slots (byte i.w1 3) 3
      writes := slots (offset i.w2) 3 }
  | .enterBumpEval => { writes := slots (offset i.w1) 4 }
  | .leaveBumpEval => { reads := slots (offset i.w1) 4 }

/-- The number of words of an instruction, with the data that follows it. -/
def width (i : Instruction) : Opcode → Nat
  | .closureBsdf | .valueV | .mix => 2
  | .texCoord => if i.w3 = 0 then 1 else 4
  | _ => 1

/-- An instruction with its data, of which `R` holds. -/
def Item (R : Instruction → List Instruction → Opcode → Prop) : List Instruction → Prop
  | [] => False
  | i :: data => ∃ o, Opcode.ofWord? i.w0 = some o ∧ data.length + 1 = width i o ∧ R i data o

lemma Item.mono {R R' : Instruction → List Instruction → Opcode → Prop} {words : List Instruction}
    (h : Item R words) (hR : ∀ i data o, R i data o → R' i data o) : Item R' words := by
  cases words with
  | nil => exact h
  | cons i data =>
    obtain ⟨o, ho, hw, h⟩ := h
    exact ⟨o, ho, hw, hR i data o h⟩

/-! ## Runs -/

/-- What the slots hold. -/
abbrev Contents : Type := Nat → Float32

/-- Whether an instruction jumps: one jump does if its slot holds one, the other if it holds
zero. -/
def jumps (σ : Contents) (i : Instruction) : Opcode → Bool
  | .jumpIfOne => σ (offset i.w2) == 1
  | .jumpIfZero => σ (offset i.w2) == 0
  | _ => false

/-- Where the machine goes from a position.  A jump counts from the position after it. -/
def next? (code : Array Instruction) (σ : Contents) (pc : Nat) : Option Nat := do
  let i ← code[pc]?
  let o ← Opcode.ofWord? i.w0
  if o = .stop then none
  else if jumps σ i o then some (((pc + 1 : Nat) : Int) + i.w1.toInt).toNat
  else some (pc + width i o)

/-- A run from the start of a section: the positions that were executed, the latest in front, each
with what the slots held then, and the position that the machine has come to. -/
inductive Run (code : Array Instruction) : List (Nat × Contents) → Nat → Prop
  | start : Run code [] 0
  | step {past : List (Nat × Contents)} {pc pc' : Nat} {σ : Contents} (run : Run code past pc)
      (h : next? code σ pc = some pc') : Run code ((pc, σ) :: past) pc'

end Machine

end Shading
