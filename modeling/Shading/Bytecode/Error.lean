import Shading.Bytecode.Stack
import Shading.Graph.Basic

/-!
# Why a section fails to compile

A failure concerns one entry point: its section is dropped and the others are compiled all the
same.
-/

namespace Shading

/-- Why a section fails to compile. -/
inductive BytecodeError where
  | stack (error : StackError)
  /-- The type of a socket has no place on the stack. -/
  | unsupportedSocketType (node : NodeId) (socket : String) (ty : SocketType)
  /-- A linked input is read before what feeds it has a slot. -/
  | unassignedLink (node : NodeId) (socket : String)
  /-- An operand exceeds a byte. -/
  | operandOverflow (value : Nat)
  | graph (error : GraphError)
  deriving DecidableEq, Repr

def StackError.message : StackError → String
  | overflow requested live =>
    "out of SVM stack space: " ++ toString requested ++ " slot(s) requested, " ++ toString live ++
      " in use"
  | stale offset => "stack slot " ++ toString offset ++ " read after release"

def BytecodeError.message : BytecodeError → String
  | stack e => e.message
  | unsupportedSocketType node socket ty =>
    "socket '" ++ socket ++ "' on node " ++ toString node ++ " has type " ++ ty.name ++
      ", which cannot live on the stack"
  | unassignedLink node socket =>
    "input '" ++ socket ++ "' on node " ++ toString node ++
      " reads an output that has no stack slot"
  | operandOverflow value => "operand " ++ toString value ++ " does not fit in a packed byte"
  | graph e => e.message

end Shading
