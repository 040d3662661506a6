import Shading.Number.Decimal

/-!
# JSON documents

A document is a tree of the six JSON sorts.  Objects keep their members in order and may hold a
name twice, because a reader has to see a repeated name to refuse it.

Numbers come in three forms.  Text distinguishes integers from decimals, and a decoder that wants
an integer accepts only the first; a document built by a program may also hold a 32-bit binary
number as such, which the printer writes with the fewest digits that read back.
-/

namespace Shading

/-- A JSON number: an integer, a number written with a point or an exponent, or a binary number
that has not been written yet. -/
inductive Number where
  | int (n : Int)
  | dec (d : Decimal)
  | float (x : Float32)

/-- A JSON document. -/
inductive Json where
  | null
  | bool (b : Bool)
  | num (n : Number)
  | str (s : String)
  | arr (items : List Json)
  | obj (members : List (String × Json))

namespace Json

instance : Inhabited Json := ⟨.null⟩

def nat (n : Nat) : Json := .num (.int n)

def int (n : Int) : Json := .num (.int n)

def float (x : Float32) : Json := .num (.float x)

/-- The document of a value that may be absent. -/
def ofOption {α : Type} (f : α → Json) : Option α → Json
  | none => .null
  | some a => f a

/-- The member of that name, if the document is an object that has one. -/
def member? (j : Json) (name : String) : Option Json :=
  match j with
  | .obj members => members.lookup name
  | _ => none

end Json

end Shading
