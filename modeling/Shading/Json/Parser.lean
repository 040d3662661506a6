import Shading.Json.Basic

/-!
# Reading JSON text

A recursive-descent reader over the characters of a text.  It accepts exactly the JSON grammar:
no leading zeros, no bare points, no control characters inside strings, and escapes that name a
lone half of a surrogate pair are refused.

Every production consumes at least one character before it calls itself, so the length of the
text bounds the depth of the recursion; the reader takes that bound as fuel and `parse?` supplies
it.
-/

namespace Shading.Json

/-- The four characters that may stand between tokens. -/
def isSpace (c : Char) : Bool := c = ' ' || c = '\t' || c = '\n' || c = '\r'

/-- Drops the space before a token. -/
def skipSpace (s : List Char) : List Char := s.dropWhile isSpace

/-! ## Strings -/

/-- The value of a hexadecimal digit. -/
def hexDigit? (c : Char) : Option Nat :=
  if '0' ≤ c && c ≤ '9' then some (c.toNat - '0'.toNat)
  else if 'a' ≤ c && c ≤ 'f' then some (c.toNat - 'a'.toNat + 10)
  else if 'A' ≤ c && c ≤ 'F' then some (c.toNat - 'A'.toNat + 10)
  else none

/-- The value of four hexadecimal digits. -/
def hexUnit? (a b c d : Char) : Option Nat := do
  let a ← hexDigit? a
  let b ← hexDigit? b
  let c ← hexDigit? c
  let d ← hexDigit? d
  return ((a * 16 + b) * 16 + c) * 16 + d

/-- The character that a one-letter escape stands for. -/
def escaped? (c : Char) : Option Char :=
  match c with
  | '"' => some '"'
  | '\\' => some '\\'
  | '/' => some '/'
  | 'b' => some '\x08'
  | 'f' => some '\x0c'
  | 'n' => some '\n'
  | 'r' => some '\r'
  | 't' => some '\t'
  | _ => none

/-- The first half of a surrogate pair. -/
def isHighHalf (u : Nat) : Bool := 0xD800 ≤ u && u < 0xDC00

/-- The second half of a surrogate pair. -/
def isLowHalf (u : Nat) : Bool := 0xDC00 ≤ u && u < 0xE000

/-- The characters up to the closing quote, collected in reverse, and the rest. -/
def stringBody (taken : List Char) : List Char → Option (String × List Char)
  | '"' :: s => some (String.ofList taken.reverse, s)
  | '\\' :: 'u' :: a :: b :: c :: d :: '\\' :: 'u' :: a' :: b' :: c' :: d' :: s => do
    let u ← hexUnit? a b c d
    if isHighHalf u then
      let v ← hexUnit? a' b' c' d'
      if isLowHalf v then
        stringBody (Char.ofNat (0x10000 + (u - 0xD800) * 0x400 + (v - 0xDC00)) :: taken) s
      else none
    else if isLowHalf u then none
    else stringBody (Char.ofNat u :: taken) ('\\' :: 'u' :: a' :: b' :: c' :: d' :: s)
  | '\\' :: 'u' :: a :: b :: c :: d :: s => do
    let u ← hexUnit? a b c d
    if isHighHalf u || isLowHalf u then none
    else stringBody (Char.ofNat u :: taken) s
  | '\\' :: c :: s => do
    let e ← escaped? c
    stringBody (e :: taken) s
  | c :: s => if c = '\\' || c.toNat < 0x20 then none else stringBody (c :: taken) s
  | [] => none

/-! ## Numbers -/

/-- The characters of which numbers are made. -/
def isNumeral (c : Char) : Bool :=
  Decimal.isDigit c || c = '.' || c = 'e' || c = 'E' || c = '+' || c = '-'

/-- Digits without a leading zero, unless zero itself. -/
def isWhole (s : List Char) : Bool :=
  !s.isEmpty && (s.length = 1 || s.head? ≠ some '0')

/-- A number without its sign: its whole part is not empty and has no leading zero, and a point
has digits after it. -/
def magnitude? (s : List Char) : Option Decimal :=
  let whole := s.takeWhile Decimal.isDigit
  let rest := s.dropWhile Decimal.isDigit
  let pointed := rest.head? = some '.'
  let (places, _) := Decimal.fractionDigits rest
  if !isWhole whole || (pointed && places.isEmpty) then none
  else Decimal.unsignedDecimal? s

/-- A number with its sign.  Only a run of digits is an integer, and a negative zero is not. -/
def signedNumber? (negative : Bool) (s : List Char) : Option Number := do
  let d ← magnitude? s
  if s.all Decimal.isDigit && !(negative && d.digits = 0) then
    return .int (if negative then -(d.digits : Int) else d.digits)
  else return .dec ⟨negative, d.digits, d.exponent⟩

/-- The number whose characters are given. -/
def number? : List Char → Option Number
  | '-' :: s => signedNumber? true s
  | s => signedNumber? false s

/-! ## Values -/

mutual

def value? : Nat → List Char → Option (Json × List Char)
  | 0, _ => none
  | fuel + 1, s =>
    match skipSpace s with
    | 'n' :: 'u' :: 'l' :: 'l' :: r => some (.null, r)
    | 't' :: 'r' :: 'u' :: 'e' :: r => some (.bool true, r)
    | 'f' :: 'a' :: 'l' :: 's' :: 'e' :: r => some (.bool false, r)
    | '"' :: r => (stringBody [] r).map fun (t, r) => (.str t, r)
    | '[' :: r =>
      match skipSpace r with
      | ']' :: r => some (.arr [], r)
      | r => (items? fuel r).map fun (xs, r) => (.arr xs, r)
    | '\x7b' :: r =>
      match skipSpace r with
      | '\x7d' :: r => some (.obj [], r)
      | r => (members? fuel r).map fun (ms, r) => (.obj ms, r)
    | r => (number? (r.takeWhile isNumeral)).map fun n => (.num n, r.dropWhile isNumeral)

/-- The items of an array up to its closing bracket. -/
def items? : Nat → List Char → Option (List Json × List Char)
  | 0, _ => none
  | fuel + 1, s =>
    match value? fuel s with
    | none => none
    | some (x, r) =>
      match skipSpace r with
      | ']' :: r => some ([x], r)
      | ',' :: r => (items? fuel r).map fun (xs, r) => (x :: xs, r)
      | _ => none

/-- The members of an object up to its closing brace. -/
def members? : Nat → List Char → Option (List (String × Json) × List Char)
  | 0, _ => none
  | fuel + 1, s =>
    match skipSpace s with
    | '"' :: r =>
      match stringBody [] r with
      | none => none
      | some (name, r) =>
        match skipSpace r with
        | ':' :: r =>
          match value? fuel r with
          | none => none
          | some (x, r) =>
            match skipSpace r with
            | '\x7d' :: r => some ([(name, x)], r)
            | ',' :: r => (members? fuel r).map fun (ms, r) => ((name, x) :: ms, r)
            | _ => none
        | _ => none
    | _ => none

end

/-- The value that a text starts with, and the text after it. -/
def parseStart? (s : List Char) : Option (Json × List Char) := value? (s.length + 1) s

/-- The document that a text holds, if it holds one and nothing else. -/
def parse? (text : String) : Option Json :=
  match parseStart? text.toList with
  | some (j, rest) => if (skipSpace rest).isEmpty then some j else none
  | none => none

end Shading.Json
