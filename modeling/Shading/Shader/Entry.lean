import Shading.Json.Decode

/-!
# Entry points

A shader is compiled in up to four sections, one for each terminal of its output node.  A table
holds something for some of them and lists it in their order.
-/

namespace Shading

/-- A terminal of the output node that is compiled by itself.  The bump section computes a normal
from the displacement and runs before the surface section. -/
inductive EntryPoint where
  | surface | bump | volume | displacement
  deriving DecidableEq, Repr

namespace EntryPoint

/-- All entry points, in their order. -/
def all : List EntryPoint := [surface, bump, volume, displacement]

/-- The input of the output node that an entry point evaluates. -/
def terminal : EntryPoint → String
  | surface => "Surface"
  | bump => "Normal"
  | volume => "Volume"
  | displacement => "Displacement"

/-- The name in messages. -/
def name : EntryPoint → String
  | surface => "surface"
  | bump => "bump"
  | volume => "volume"
  | displacement => "displacement"

def label : EntryPoint → String
  | surface => "Surface"
  | bump => "Bump"
  | volume => "Volume"
  | displacement => "Displacement"

def ofJson? (j : Json) : Option EntryPoint := j.enum? all label

end EntryPoint

/-- Something for each of some entry points. -/
structure EntryTable (α : Type) where
  surface : Option α := none
  bump : Option α := none
  volume : Option α := none
  displacement : Option α := none
  deriving DecidableEq

namespace EntryTable

variable {α : Type}

instance : Inhabited (EntryTable α) := ⟨{}⟩

def get? (t : EntryTable α) : EntryPoint → Option α
  | .surface => t.surface
  | .bump => t.bump
  | .volume => t.volume
  | .displacement => t.displacement

def set (t : EntryTable α) (e : EntryPoint) (a : Option α) : EntryTable α :=
  match e with
  | .surface => { t with surface := a }
  | .bump => { t with bump := a }
  | .volume => { t with volume := a }
  | .displacement => { t with displacement := a }

def insert (t : EntryTable α) (e : EntryPoint) (a : α) : EntryTable α := t.set e (some a)

def erase (t : EntryTable α) (e : EntryPoint) : EntryTable α := t.set e none

def toList (t : EntryTable α) : List (EntryPoint × α) :=
  EntryPoint.all.filterMap fun e => (t.get? e).map (e, ·)

/-- The table that an object holds, with the names of entry points as its members. -/
def ofJson? (f : Json → Option α) : Json → Option (EntryTable α)
  | .obj members => members.foldlM (fun t (name, j) => do
      let e ← EntryPoint.ofJson? (.str name)
      return t.insert e (← f j)) {}
  | _ => none

/-- The table as an object. -/
def toJson (f : α → Json) (t : EntryTable α) : Json :=
  .obj (t.toList.map fun (e, a) => (e.label, f a))

@[simp] theorem get?_set (t : EntryTable α) (e e' : EntryPoint) (a : Option α) :
    (t.set e a).get? e' = if e' = e then a else t.get? e' := by
  cases e <;> cases e' <;> rfl

end EntryTable

end Shading
