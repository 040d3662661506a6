import Shading.Shader.Entry

/-!
# Compiled programs

A shader compiles either to instructions, laid out as a header followed by one section for each
entry point, or to groups of layers that live in an external engine.
-/

namespace Shading

/-- An instruction: four words, of which the first is usually an opcode. -/
structure Instruction where
  w0 : Int32
  w1 : Int32
  w2 : Int32
  w3 : Int32
  deriving DecidableEq, Inhabited, Repr

namespace Instruction

def toList (i : Instruction) : List Int32 := [i.w0, i.w1, i.w2, i.w3]

def ofJson? (j : Json) : Option Instruction := do
  match ← j.list? Json.int32? with
  | [a, b, c, d] => some ⟨a, b, c, d⟩
  | _ => none

def toJson (i : Instruction) : Json := .arr (i.toList.map fun w => .int w.toInt)

end Instruction

/-- A range of positions, the end excluded. -/
structure Span where
  start : Nat
  stop : Nat
  deriving DecidableEq, Inhabited, Repr

namespace Span

/-- The range that a document holds.  Its object form has no other members. -/
def ofJson? (j : Json) : Option Span := do
  let r ← j.fields? ["start", "end"]
  let s : Span := ⟨← r.get? "start" Json.index64?, ← r.get? "end" Json.index64?⟩
  match j with
  | .obj members => if members.all fun m => m.1 == "start" || m.1 == "end" then some s else none
  | _ => some s

def toJson (s : Span) : Json := .obj [("start", .nat s.start), ("end", .nat s.stop)]

end Span

/-- A program of instructions. -/
structure Program where
  instructions : Array Instruction
  /-- Where the section of each compiled entry point lies. -/
  entries : EntryTable Span := {}
  peakStackUsage : Nat := 0

namespace Program

instance : Inhabited Program := ⟨⟨#[], {}, 0⟩⟩

/-- The section of an entry point; nothing if it was not compiled. -/
def section? (p : Program) (e : EntryPoint) : List Instruction :=
  match p.entries.get? e with
  | some s => (p.instructions.extract s.start s.stop).toList
  | none => []

def sectionLength (p : Program) (e : EntryPoint) : Nat := (p.section? e).length

def ofJson? (j : Json) : Option Program := do
  let r ← j.fields? ["instructions", "entries", "peak_stack_usage"]
  return ⟨(← r.get? "instructions" (Json.list? Instruction.ofJson?)).toArray,
    ← r.get? "entries" (EntryTable.ofJson? Span.ofJson?), ← r.get? "peak_stack_usage" Json.index32?⟩

def toJson (p : Program) : Json :=
  .obj [("instructions", .arr (p.instructions.toList.map Instruction.toJson)),
    ("entries", p.entries.toJson Span.toJson), ("peak_stack_usage", .nat p.peakStackUsage)]

end Program

/-- A group of layers in an external engine. -/
abbrev GroupId : Type := Nat

/-- The groups that an external engine linked, one for each compiled entry point. -/
structure ExternalProgram where
  groups : EntryTable GroupId := {}
  deriving DecidableEq, Inhabited

namespace ExternalProgram

/-- How a group is named in messages. -/
def groupName (g : GroupId) : String := "group#" ++ toString g

def ofJson? (j : Json) : Option ExternalProgram := do
  let r ← j.fields? ["groups"]
  return ⟨← r.get? "groups" (EntryTable.ofJson? Json.index64?)⟩

def toJson (p : ExternalProgram) : Json := .obj [("groups", p.groups.toJson .nat)]

end ExternalProgram

/-- What a shader compiles to. -/
inductive CompiledProgram where
  | bytecode (program : Program)
  | external (program : ExternalProgram)

namespace CompiledProgram

def bytecode? : CompiledProgram → Option Program
  | .bytecode p => some p
  | .external _ => none

def external? : CompiledProgram → Option ExternalProgram
  | .bytecode _ => none
  | .external p => some p

def ofJson? (j : Json) : Option CompiledProgram := do
  match ← j.variant? with
  | ("Bytecode", some payload) => (Program.ofJson? payload).map .bytecode
  | ("External", some payload) => (ExternalProgram.ofJson? payload).map .external
  | _ => none

def toJson : CompiledProgram → Json
  | .bytecode p => .obj [("Bytecode", p.toJson)]
  | .external p => .obj [("External", p.toJson)]

end CompiledProgram

end Shading
