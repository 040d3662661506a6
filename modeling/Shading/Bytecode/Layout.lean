import Shading.Bytecode.Opcode
import Shading.Hash.Blake3

/-!
# Laying out programs

A program is a header, the sections, and a terminator if some entry point has no section.  The
header holds where to start for surface, volume and displacement.  The bump section has no end of
its own: it stands right before the surface section and runs into it, so a surface with bump starts
at the bump.
-/

namespace Shading.Program

/-- The order of the sections in a program. -/
def sectionOrder : List EntryPoint := [.bump, .surface, .volume, .displacement]

def appendSection (sections : EntryTable (Array Instruction))
    (p : Array Instruction × EntryTable Span) (e : EntryPoint) : Array Instruction × EntryTable Span :=
  match sections.get? e with
  | some code => (p.1 ++ code, p.2.insert e ⟨p.1.size, p.1.size + code.size⟩)
  | none => p

def ofSections (sections : EntryTable (Array Instruction)) (peak : Nat) : Program :=
  let header := #[Instruction.op .shaderJump 0 0 0]
  let (code, entries) := sectionOrder.foldl (appendSection sections) (header, {})
  let start := fun e => (entries.get? e).map Span.start
  let surface := (start .bump).or (start .surface)
  let volume := start .volume
  let displacement := start .displacement
  let lacks := surface.isNone || volume.isNone || displacement.isNone
  let full := if lacks then code.push (.op .stop 0 0 0) else code
  let target := fun (t : Option Nat) => Int32.ofNat (t.getD code.size)
  let jump := Instruction.op .shaderJump (target surface) (target volume) (target displacement)
  ⟨full.setIfInBounds 0 jump, entries, peak⟩

/-- The bytes of a program: the words of its instructions in order, each with the low byte
first. -/
def bytes (p : Program) : List UInt8 :=
  p.instructions.toList.flatMap fun i => i.toList.flatMap fun w => Blake3.wordBytes w.toUInt32

def hash (p : Program) : String := Blake3.hexHash p.bytes

end Shading.Program
