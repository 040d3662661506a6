import Shading.Bytecode.Closure
import Shading.Bytecode.Layout
import Shading.Bytecode.Summary

/-!
# Compiling shaders to instructions

Every linked entry point is compiled into a section by itself.  A section that fails is dropped,
with its flags and attributes, and reported; the others stand.  The bump section is kept only
together with a surface section.
-/

namespace Shading

namespace SectionContext

open Emit

/-- The number of slots that hold the shading state while a bump is evaluated. -/
def bumpStateSize : Nat := 4

/-- Whether the shading state is saved around the section. -/
def savesState (ctx : SectionContext) : Bool :=
  ctx.entry == .bump && ctx.displacementMethod == .both

/-- The flag of a section that has something linked to its terminal. -/
def entryFlags : EntryPoint → ShaderFlags
  | .surface => { hasSurface := true }
  | .volume => { hasVolume := true }
  | .displacement => { hasDisplacement := true }
  | .bump => {}

/-- Takes slots for the shading state and saves it. -/
def enterBump (ctx : SectionContext) : Emit (Option Nat) := do
  if ctx.savesState then
    let slot ← claim bumpStateSize
    op .enterBumpEval (slotWord slot) 0 0
    return some slot
  else return none

def leaveBump : Option Nat → Emit Unit
  | none => return
  | some slot => do
    op .leaveBumpEval (slotWord slot) 0 0
    release slot bumpStateSize

def compile (ctx : SectionContext) : Emit Unit := do
  let output := ctx.graph.output
  let (terminal, _) ← ofGraph (ctx.graph.requireInput output ctx.entry.terminal)
  let state ← ctx.enterBump
  if let some (root, _) := ctx.graph.net.inputLink? output terminal then
    modifyFlags fun f => f.union (entryFlags ctx.entry)
    ctx.visitRoot root
  setPhase .emitting
  ctx.emitOutput output
  leaveBump state
  if ctx.entry ≠ .bump then op .stop 0 0 0
  setPhase .finished

end SectionContext

/-- How shaders are compiled. -/
structure BytecodeOptions where
  background : Bool := false
  /-- Keep all accesses to the stack. -/
  recordTrace : Bool := false
  deriving DecidableEq, Repr

/-- An entry point that failed, what it was doing then, and why. -/
structure SectionFailure where
  entry : EntryPoint
  phase : Phase
  error : BytecodeError
  deriving DecidableEq, Repr

/-- What the sections compiled so far amount to. -/
structure SectionResults where
  flags : ShaderFlags
  requests : AttributeSet := .empty
  sections : EntryTable (Array Instruction) := {}
  /-- The failures, the latest in front. -/
  failures : List SectionFailure := []
  traces : EntryTable (List SlotEvent) := {}
  peak : Nat := 0
  ids : AttributeIds

namespace SectionResults

/-- The results with what every section leaves behind, whether it failed or not. -/
def addState (r : SectionResults) (options : BytecodeOptions) (e : EntryPoint) (s : SectionState) :
    SectionResults :=
  { r with
    peak := max r.peak s.stack.peak
    traces := if options.recordTrace then r.traces.insert e s.stack.takeTrace.1 else r.traces
    ids := s.ids }

/-- Compiles one entry point, if something is linked to it. -/
def addEntry (options : BytecodeOptions) (shader : Shader) (r : SectionResults) (e : EntryPoint) :
    SectionResults :=
  if shader.isTerminalLinked e then
    let ctx : SectionContext :=
      ⟨shader.graph, e, options.background, shader.displacementMethod⟩
    match ctx.compile.run (.new options.recordTrace r.ids) with
    | .ok _ s =>
      let r := r.addState options e s
      { r with
        flags := r.flags.union s.flags
        requests := r.requests.union s.requests
        sections := r.sections.insert e s.code }
    | .error error s =>
      let r := r.addState options e s
      { r with failures := ⟨e, s.phase, error⟩ :: r.failures }
  else r

end SectionResults

/-- What a compilation gives. -/
structure BytecodeOutput where
  program : Program
  summary : Summary
  failures : List SectionFailure
  traces : EntryTable (List SlotEvent)

def BytecodeOutput.isComplete (o : BytecodeOutput) : Bool := o.failures.isEmpty

namespace Shader

/-- The entry points that are compiled, in this order. -/
def bytecodeEntries (hasBump : Bool) : List EntryPoint :=
  (if hasBump then [.bump] else []) ++ [.surface, .volume, .displacement]

/-- The sections of a prepared shader. -/
def compileSections (s : Shader) (hasBump : Bool) (options : BytecodeOptions) (ids : AttributeIds) :
    SectionResults :=
  (bytecodeEntries hasBump).foldl (SectionResults.addEntry options s)
    { flags := { hasBump := hasBump }, ids }

/-- Prepares a shader and compiles it to instructions.  The shader's flags and attributes are those
of the compilation; the program is not stored in it. -/
def compileBytecode (s : Shader) (options : BytecodeOptions) (ids : AttributeIds) :
    BytecodeOutput × Shader × AttributeIds :=
  let hasBump := s.needsBump
  let s := s.prepare
  let r := s.compileSections hasBump options ids
  let sections := if r.sections.surface.isNone then r.sections.erase .bump else r.sections
  let program := Program.ofSections sections r.peak
  let failures := r.failures.reverse
  let summary : Summary :=
    { instructionCount := program.instructions.size
      peakStackUsage := r.peak
      failed := failures.map SectionFailure.entry }
  (⟨program, summary, failures, r.traces⟩,
    { s with flags := r.flags }.updateAttributes r.requests, r.ids)

end Shader

end Shading
