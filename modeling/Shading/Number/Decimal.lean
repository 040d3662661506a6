import Shading.Number.Nearest

/-!
# Decimal numbers

A decimal is a sign, a natural and a power of ten.  This module reads decimals from text, rounds
them to 32-bit binary numbers, and writes a binary number as the decimal with the fewest digits
that reads back.  All of it is exact arithmetic on naturals; rounding happens in
`Shading.Number.Nearest` and nowhere else.

Three readers are kept apart because their formats differ: signed integers, unsigned integers,
and binary numbers, which also know infinity and the undefined number by name.
-/

namespace Shading

/-- `digits * 10 ^ exponent`, with a sign. -/
structure Decimal where
  negative : Bool
  digits : Nat
  exponent : Int
  deriving DecidableEq

namespace Decimal

/-- Number of decimal digits; zero has none. -/
def width (n : Nat) : Nat := if n = 0 then 0 else (Nat.toDigits 10 n).length

/-- Powers of ten beyond this one lie outside every binary format in both directions. -/
def horizon : Int := 400

/-- The magnitude as a quotient, or `none` if it is beyond the horizon.  A magnitude too small
for every format is given as zero, so that no huge power is ever computed. -/
def fraction? (d : Decimal) : Option (Nat × Nat) :=
  let place := (width d.digits : Int) + d.exponent
  if d.digits = 0 then some (0, 1)
  else if place > horizon then none
  else if place < -horizon then some (0, 1)
  else if 0 ≤ d.exponent then some (d.digits * Nat.pow 10 d.exponent.toNat, 1)
  else some (d.digits, Nat.pow 10 (-d.exponent).toNat)

def toFloat32 (d : Decimal) : Float32 :=
  match d.fraction? with
  | some (num, den) => Format.toFloat32 d.negative (Format.singleBits num den)
  | none => Format.toFloat32 d.negative Format.single.infinity

/-- The nearest 32-bit number to the nearest 64-bit number, if the latter is finite. -/
def toFloat32ThroughDouble? (d : Decimal) : Option Float32 := do
  let (num, den) ← d.fraction?
  let bits ← Format.singleBitsThroughDouble num den
  return Format.toFloat32 d.negative bits

/-! ## Reading -/

/-- One of the ten digits. -/
def isDigit (c : Char) : Bool := '0' ≤ c && c ≤ '9'

/-- The natural that a list of digits stands for. -/
def readDigits (s : List Char) : Nat := s.foldl (fun n c => 10 * n + (c.toNat - '0'.toNat)) 0

/-- A non-empty list of digits and nothing else. -/
def natural? (s : List Char) : Option Nat :=
  if s.isEmpty || !s.all isDigit then none else some (readDigits s)

def integer? : List Char → Option Int
  | '-' :: s => (natural? s).map fun n => -(n : Int)
  | '+' :: s => (natural? s).map Int.ofNat
  | s => (natural? s).map Int.ofNat

/-- A natural with an optional plus sign. -/
def unsigned? : List Char → Option Nat
  | '+' :: s => natural? s
  | s => natural? s

/-- An exponent mark with its integer, or nothing. -/
def exponent? : List Char → Option Int
  | [] => some 0
  | c :: s => if c = 'e' || c = 'E' then integer? s else none

/-- The digits after a point, if there is one, and what follows them. -/
def fractionDigits : List Char → List Char × List Char
  | '.' :: s => (s.takeWhile isDigit, s.dropWhile isDigit)
  | s => ([], s)

/-- Digits with an optional point and an optional exponent; one side of the point may be
empty. -/
def unsignedDecimal? (s : List Char) : Option Decimal :=
  let whole := s.takeWhile isDigit
  let (places, rest) := fractionDigits (s.dropWhile isDigit)
  if whole.isEmpty && places.isEmpty then none
  else (exponent? rest).map fun e => ⟨false, readDigits (whole ++ places), e - places.length⟩

/-- A binary number named by a word, in any case. -/
def namedFloat32? (negative : Bool) (s : List Char) : Option Float32 :=
  let name := s.map Char.toLower
  if name = "inf".toList || name = "infinity".toList then
    some (Format.toFloat32 negative Format.single.infinity)
  else if name = "nan".toList then some (Float32.ofBits 0x7fc00000)
  else none

/-- The magnitude after the sign: a decimal, or infinity and the undefined number by name. -/
def magnitude? (negative : Bool) (s : List Char) : Option Float32 :=
  match unsignedDecimal? s with
  | some d => some (toFloat32 ⟨negative, d.digits, d.exponent⟩)
  | none => namedFloat32? negative s

/-- A 32-bit number from its text, correctly rounded. -/
def float32? : List Char → Option Float32
  | '-' :: s => magnitude? true s
  | '+' :: s => magnitude? false s
  | s => magnitude? false s

/-! ## Writing -/

/-- The finite positive number with this pattern, as a quotient. -/
def quotientOfBits (bits : Nat) : Nat × Nat :=
  if bits < 8388608 then (bits, 1 <<< 149)
  else
    let m := 8388608 + bits % 8388608
    let e : Int := (bits / 8388608 : Nat) - 150
    if 0 ≤ e then (m <<< e.toNat, 1) else (m, 1 <<< (-e).toNat)

/-- `num / den` divided by `10 ^ place`, again as a quotient. -/
def shiftPlaces (num den : Nat) (place : Int) : Nat × Nat :=
  if 0 ≤ place then (num, den * Nat.pow 10 place.toNat) else (num * Nat.pow 10 (-place).toNat, den)

/-- The least power of ten above `num / den`, searched between the ends of the 32-bit range. -/
def topPlace (num den : Nat) : Int :=
  let places := (List.range 90).map fun (i : Nat) => (i : Int) - 46
  (places.find? fun p => let (a, b) := shiftPlaces num den p; a < b).getD 44

/-- Whether `digits * 10 ^ place` reads as the number with this pattern. -/
def readsAs (bits digits : Nat) (place : Int) : Bool :=
  match fraction? ⟨false, digits, place⟩ with
  | some (num, den) => Format.singleBits num den = bits
  | none => false

/-- A decimal of `n` digits that reads as the number with this pattern: of the two neighbours on
the grid of `n` digits the one that does, and the nearer one if both do. -/
def withDigits? (bits n : Nat) : Option (Nat × Int) :=
  let (num, den) := quotientOfBits bits
  let place := topPlace num den - n
  let (a, b) := shiftPlaces num den place
  let below := a / b
  let nearer := if 2 * (a % b) ≤ b then below else below + 1
  let other := if nearer = below then below + 1 else below
  ([nearer, other].find? fun c => readsAs bits c place).map (·, place)

/-- Drops the zeros at the end of a significand. -/
def dropZeros : Nat → Nat → Int → Nat × Int
  | 0, digits, place => (digits, place)
  | fuel + 1, digits, place =>
    if digits ≠ 0 && digits % 10 = 0 then dropZeros fuel (digits / 10) (place + 1)
    else (digits, place)

/-- The decimal with the fewest digits that reads as the finite number `x`.  Nine digits tell all
32-bit numbers apart, so the search always ends in a hit. -/
def shortest (x : Float32) : Decimal :=
  let bits := x.toBits.toNat
  let negative := 2147483648 ≤ bits
  let magnitude := bits % 2147483648
  if magnitude = 0 then ⟨negative, 0, 0⟩
  else
    match (List.range' 1 9).findSome? (withDigits? magnitude) with
    | some (digits, place) =>
      let (d, p) := dropZeros 9 digits place
      ⟨negative, d, p⟩
    | none => ⟨negative, 0, 0⟩

/-! ## Fixed places -/

/-- `num / den` with six digits after the point, a tie to the even last digit. -/
def sixPlaces (num den : Nat) : String :=
  let millionths := Format.divNearest (num * 1000000) den
  let places := String.ofList (Nat.toDigits 10 (millionths % 1000000))
  let padding := String.ofList (List.replicate (6 - places.length) '0')
  toString (millionths / 1000000) ++ "." ++ padding ++ places

end Decimal

end Shading
