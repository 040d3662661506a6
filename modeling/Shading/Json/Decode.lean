import Shading.Json.Basic

/-!
# Decoding documents

Readers from documents to values, all partial functions `Json → Option α`.  Integers are read from
integer literals only, in the range of their type; binary numbers are read from any number.

Two shapes recur.  A *record* is an object, whose unknown members are ignored and in which a known
member may not stand twice, or the list of its fields in order.  A *variant* is its name alone, or
an object with its name as the only member.
-/

namespace Shading.Json

/-! ## Leaves -/

def bool? : Json → Option Bool
  | .bool b => some b
  | _ => none

def str? : Json → Option String
  | .str s => some s
  | _ => none

/-- An integer literal between the bounds, the upper one excluded. -/
def intWithin? (lo hi : Int) : Json → Option Int
  | .num (.int n) => if lo ≤ n && n < hi then some n else none
  | _ => none

/-- A natural literal below the bound. -/
def natBelow? (bound : Nat) (j : Json) : Option Nat := (intWithin? 0 bound j).map Int.toNat

def uint16? (j : Json) : Option UInt16 := (natBelow? UInt16.size j).map UInt16.ofNat

def uint32? (j : Json) : Option UInt32 := (natBelow? UInt32.size j).map UInt32.ofNat

def int32? (j : Json) : Option Int32 :=
  (intWithin? (-2147483648) 2147483648 j).map Int32.ofInt

/-- A natural that fits an index of 32 bits. -/
def index32? (j : Json) : Option Nat := natBelow? UInt32.size j

/-- A natural that fits 64 bits. -/
def index64? (j : Json) : Option Nat := natBelow? UInt64.size j

/-- The number as a decimal, unless it is binary already. -/
def Number.toDecimal : Number → Option Decimal
  | .int n => some ⟨n < 0, n.natAbs, 0⟩
  | .dec d => some d
  | .float _ => none

/-- A 32-bit number: rounded to 64 bits and then to 32.  A number beyond 64 bits is refused, one
that is only beyond 32 bits becomes infinite. -/
def float32? : Json → Option Float32
  | .num (.float x) => some x
  | .num n => (Number.toDecimal n).bind Decimal.toFloat32ThroughDouble?
  | _ => none

/-! ## Lists and options -/

/-- An array of any length. -/
def list? {α : Type} (f : Json → Option α) : Json → Option (List α)
  | .arr items => items.mapM f
  | _ => none

/-- An array of exactly `n` items. -/
def vector? {α : Type} (n : Nat) (f : Json → Option α) (j : Json) : Option (Vector α n) := do
  let items ← list? f j
  if h : items.toArray.size = n then return ⟨items.toArray, h⟩ else none

/-- A value that may be null. -/
def option? {α : Type} (f : Json → Option α) : Json → Option (Option α)
  | .null => some none
  | j => (f j).map some

/-! ## Records -/

/-- What a record holds under each name. -/
abbrev Fields : Type := String → Option Json

/-- How often an object names a member. -/
def occurrences (members : List (String × Json)) (name : String) : Nat :=
  members.countP fun m => m.1 == name

/-- Reads a record with the given fields.  The array form lists at least the first `least` fields
and at most all of them. -/
def record? (names : List String) (least : Nat) : Json → Option Fields
  | .obj members =>
    if names.all fun n => occurrences members n ≤ 1 then some fun n => members.lookup n else none
  | .arr items =>
    if least ≤ items.length && items.length ≤ names.length then
      some fun n => (names.zip items).lookup n
    else none
  | _ => none

/-- A record all of whose fields stand in the array form. -/
def fields? (names : List String) (j : Json) : Option Fields := record? names names.length j

/-- A field that has to be there. -/
def Fields.get? {α : Type} (r : Fields) (name : String) (f : Json → Option α) : Option α :=
  (r name).bind f

/-- A field that may be absent or null. -/
def Fields.option? {α : Type} (r : Fields) (name : String) (f : Json → Option α) :
    Option (Option α) :=
  match r name with
  | none => some none
  | some j => Json.option? f j

/-- A field that takes a default when it is absent. -/
def Fields.getD? {α : Type} (r : Fields) (name : String) (default : α) (f : Json → Option α) :
    Option α :=
  match r name with
  | none => some default
  | some j => f j

/-! ## Variants -/

/-- The name of a variant and its payload. -/
def variant? : Json → Option (String × Option Json)
  | .str s => some (s, none)
  | .obj [(name, payload)] => some (name, some payload)
  | _ => none

/-- Whether a payload says nothing: it is absent or null. -/
def isVoid : Option Json → Bool
  | none => true
  | some .null => true
  | some _ => false

/-- Whether a payload says nothing, where an empty object is also allowed to say it. -/
def isVoidOrEmpty : Option Json → Bool
  | some (.obj []) => true
  | p => isVoid p

/-- A variant without payload, found by name among all of them. -/
def enum? {α : Type} (all : List α) (name : α → String) (j : Json) : Option α := do
  let (n, payload) ← variant? j
  if isVoid payload then all.find? fun a => name a == n else none

/-- A variant without payload, where an empty object may stand for no payload. -/
def lenientEnum? {α : Type} (all : List α) (name : α → String) (j : Json) : Option α := do
  let (n, payload) ← variant? j
  if isVoidOrEmpty payload then all.find? fun a => name a == n else none

end Shading.Json
