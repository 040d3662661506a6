import Shading.Json.Basic

/-!
# Writing JSON text

A document is written with one member or item a line and an indentation of two spaces.

A finite binary number is written with the fewest digits that read back.  Between a millionth and
ten to the thirteenth it is written positionally, with at least one digit after the point; beyond
that an exponent follows the digits.  Infinities and the undefined number have no JSON form and
are written as null.
-/

namespace Shading.Json

/-! ## Leaves -/

/-- Four hexadecimal digits. -/
def hexUnit (n : Nat) : List Char :=
  [Nat.digitChar (n / 4096 % 16), Nat.digitChar (n / 256 % 16), Nat.digitChar (n / 16 % 16),
    Nat.digitChar (n % 16)]

/-- A character inside a string: quotes, backslashes and control characters are escaped. -/
def escapeChar (c : Char) : List Char :=
  match c with
  | '"' => ['\\', '"']
  | '\\' => ['\\', '\\']
  | '\x08' => ['\\', 'b']
  | '\x0c' => ['\\', 'f']
  | '\n' => ['\\', 'n']
  | '\r' => ['\\', 'r']
  | '\t' => ['\\', 't']
  | c => if c.toNat < 0x20 then ['\\', 'u'] ++ hexUnit c.toNat else [c]

def quote (s : String) : String :=
  String.ofList ('"' :: s.toList.flatMap escapeChar ++ ['"'])

/-- How far to the left and to the right of the point digits are written positionally. -/
structure Positional where
  before : Int
  after : Int

/-- At most thirteen digits before the point, and at most five zeros after it. -/
def positional : Positional := ⟨13, -6⟩

/-- The digits of a positive decimal with point or exponent. -/
def spell (digits : Nat) (exponent : Int) : String :=
  let ds := Nat.toDigits 10 digits
  let place := (ds.length : Int) + exponent
  let zeros (n : Int) : List Char := List.replicate n.toNat '0'
  if 0 ≤ exponent && place ≤ positional.before then
    String.ofList (ds ++ zeros exponent ++ ['.', '0'])
  else if 0 < place && place ≤ positional.before then
    String.ofList (ds.take place.toNat ++ '.' :: ds.drop place.toNat)
  else if positional.after < place && place ≤ 0 then
    String.ofList ('0' :: '.' :: zeros (-place) ++ ds)
  else
    let point := if ds.length = 1 then [] else ['.']
    String.ofList (ds.take 1 ++ point ++ ds.drop 1 ++ ['e']) ++ toString (place - 1)

/-- A decimal as a number with a point or an exponent. -/
def spellDecimal (d : Decimal) : String :=
  (if d.negative then "-" else "") ++ if d.digits = 0 then "0.0" else spell d.digits d.exponent

def spellNumber : Number → String
  | .int n => toString n
  | .dec d => spellDecimal d
  | .float x => if x.isFinite then spellDecimal (Decimal.shortest x) else "null"

/-! ## Documents -/

/-- A line break and `depth` levels of indentation. -/
def newline (depth : Nat) : String := String.ofList ('\n' :: List.replicate (2 * depth) ' ')

mutual

/-- The pieces of the indented form. -/
def prettyPieces (depth : Nat) : Json → List String
  | .arr [] => ["[]"]
  | .arr items => "[" :: prettyItems (depth + 1) items ++ [newline depth, "]"]
  | .obj [] => ["\x7b\x7d"]
  | .obj members => "\x7b" :: prettyMembers (depth + 1) members ++ [newline depth, "\x7d"]
  | .null => ["null"]
  | .bool b => [if b then "true" else "false"]
  | .num n => [spellNumber n]
  | .str s => [quote s]

/-- The pieces of array items, one a line. -/
def prettyItems (depth : Nat) : List Json → List String
  | [] => []
  | [x] => newline depth :: prettyPieces depth x
  | x :: xs => newline depth :: prettyPieces depth x ++ "," :: prettyItems depth xs

/-- The pieces of object members, one a line. -/
def prettyMembers (depth : Nat) : List (String × Json) → List String
  | [] => []
  | [(k, v)] => newline depth :: quote k :: ": " :: prettyPieces depth v
  | (k, v) :: ms =>
    newline depth :: quote k :: ": " :: prettyPieces depth v ++ "," :: prettyMembers depth ms

end

/-- The document with one member or item a line. -/
def pretty (j : Json) : String := String.join (prettyPieces 0 j)

end Shading.Json
