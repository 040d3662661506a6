/-!
# The evaluation stack

The machine has a fixed number of slots.  Every slot counts its users; a slot without users is
free, and reading it is an error.  A value takes the first run of free slots that is long enough.

Offsets are naturals.  The offset `Stack.invalid`, one beyond the last slot, stands for a value that
takes no slots at all.
-/

namespace Shading

/-- What happens to a run of slots. -/
inductive SlotAccess where
  | write | read | release
  deriving DecidableEq, Repr

/-- An access, with the position of the next instruction at its time. -/
structure SlotEvent where
  position : Nat
  offset : Nat
  size : Nat
  access : SlotAccess
  deriving DecidableEq, Repr

/-- Why an operation on the stack fails. -/
inductive StackError where
  /-- No run of free slots is long enough. -/
  | overflow (requested live : Nat)
  /-- A slot without users was read. -/
  | stale (offset : Nat)
  deriving DecidableEq, Repr

/-- The number of slots. -/
def Stack.size : Nat := 255

/-- The users of each slot, the highest slot ever taken, and what was done, if it is recorded. -/
structure Stack where
  users : Vector Nat Stack.size
  peak : Nat
  /-- The accesses, the latest in front. -/
  trace : Option (List SlotEvent)

namespace Stack

/-- The offset of values that take no slots. -/
def invalid : Nat := 255

/-- All slots are free. -/
def new (record : Bool) : Stack :=
  ⟨Vector.replicate size 0, 0, if record then some [] else none⟩

instance : Inhabited Stack := ⟨new false⟩

/-- Whether slot `i` belongs to the value of the given size at the offset. -/
def covers (offset size i : Nat) : Bool :=
  offset != invalid && offset ≤ i && i < offset + size

/-- The slots of a value. -/
def range (offset size : Nat) : List (Fin Stack.size) :=
  (List.finRange Stack.size).filter fun i => covers offset size i

def isLive (s : Stack) (offset : Nat) : Bool := (s.users[offset]?).any fun u => 0 < u

def live (s : Stack) : Nat := s.users.toList.countP fun u => 0 < u

/-- Looks for a run of free slots among the users of the slots from position `i` on; `run` is the
length of the free run that ends before them. -/
def scan (size : Nat) : List Nat → (i run : Nat) → Option Nat
  | [], _, _ => none
  | u :: users, i, run =>
    let run := if u = 0 then run + 1 else 0
    if run = size then some (i + 1 - size) else scan size users (i + 1) run

/-- The first run of free slots that is long enough. -/
def firstFit? (s : Stack) (size : Nat) : Option Nat := scan size s.users.toList 0 0

/-- Records an access, if accesses are recorded. -/
def record (s : Stack) (event : SlotEvent) : Stack :=
  { s with trace := s.trace.map (event :: ·) }

/-- Changes the users of the slots of a value. -/
def mapUsers (s : Stack) (offset size : Nat) (f : Nat → Nat) : Stack :=
  { s with users := s.users.mapIdx fun i u => if covers offset size i then f u else u }

/-- Takes the first run of free slots that is long enough.  A value without slots gets the invalid
offset. -/
def claim (s : Stack) (size position : Nat) : Except StackError (Nat × Stack) :=
  if size = 0 then .ok (invalid, s)
  else
    match s.firstFit? size with
    | some offset =>
      let s := s.mapUsers offset size fun _ => 1
      let s := { s with peak := max s.peak (offset + size) }
      .ok (offset, s.record ⟨position, offset, size, .write⟩)
    | none => .error (.overflow size s.live)

def addUser (s : Stack) (offset size : Nat) : Stack := s.mapUsers offset size (· + 1)

/-- Takes a user from every slot of a value; it is recorded if that frees a slot. -/
def release (s : Stack) (offset size position : Nat) : Stack :=
  let s := s.mapUsers offset size (· - 1)
  if (range offset size).any fun i => s.users[i] == 0 then
    s.record ⟨position, offset, size, .release⟩
  else s

/-- Reads a value, all of whose slots have to have users. -/
def read (s : Stack) (offset size position : Nat) : Except StackError Stack :=
  match (range offset size).find? fun i => s.users[i] == 0 with
  | some i => .error (.stale i)
  | none => .ok (s.record ⟨position, offset, size, .read⟩)

/-- The recorded accesses, the earliest first, and the stack that records no more. -/
def takeTrace (s : Stack) : List SlotEvent × Stack :=
  ((s.trace.getD []).reverse, { s with trace := none })

end Stack

end Shading
