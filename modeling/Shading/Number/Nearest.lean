/-!
# Nearest binary numbers

A binary number with `precision` significant bits is `m * 2 ^ e`.  `Format.nearest` rounds a
quotient of two naturals to such a number, to the nearest one and a tie to the even `m`, and
keeps `e` above the exponent of the least positive number of the format, so that tiny quotients
lose digits instead of exponent range.

The result is a pair and not yet a bit pattern: the range of the format is a matter of
`Format.bits`, where every number beyond the largest one becomes the pattern of infinity.
-/

namespace Shading

/-- The shape of a binary interchange format. -/
structure Format where
  /-- Significant bits, the leading one included. -/
  precision : Nat
  /-- The least positive number is `2 ^ (-leastExponent)`. -/
  leastExponent : Nat
  /-- Number of exponent patterns below the one of infinity. -/
  exponents : Nat

namespace Format

/-- 32-bit numbers: 24 significant bits, least positive number `2 ^ -149`. -/
def single : Format := ⟨24, 149, 255⟩

/-- 64-bit numbers: 53 significant bits, least positive number `2 ^ -1074`. -/
def double : Format := ⟨53, 1074, 2047⟩

/-- The quotient of two naturals to the nearest natural, a tie to the even one. -/
def divNearest (num den : Nat) : Nat :=
  let q := num / den
  let r := num % den
  if 2 * r < den then q
  else if 2 * r = den then q + q % 2
  else q + 1

/-- `num / den` scaled by `2 ^ (-e)` and rounded to the nearest natural. -/
def scaledNearest (num den : Nat) (e : Int) : Nat :=
  if 0 ≤ e then divNearest num (den <<< e.toNat) else divNearest (num <<< (-e).toNat) den

/-- The exponent of the leading bit of `num / den`, for positive arguments. -/
def leadingExponent (num den : Nat) : Int :=
  let k : Int := (Nat.log2 num : Int) - (Nat.log2 den : Int)
  let reaches := if 0 ≤ k then den <<< k.toNat ≤ num else den ≤ num <<< (-k).toNat
  if reaches then k else k - 1

/-- The nearest number of the format to `num / den`, as `(m, e)` standing for `m * 2 ^ e`. -/
def nearest (f : Format) (num den : Nat) : Nat × Int :=
  if num = 0 then (0, -(f.leastExponent : Int))
  else
    let e := max (-(f.leastExponent : Int)) (leadingExponent num den - (f.precision - 1 : Nat))
    (scaledNearest num den e, e)

/-- The bit pattern without sign of `m * 2 ^ e` as `nearest` gives it.  A carry out of the
significand moves into the exponent by itself, and everything too large is infinity. -/
def bits (f : Format) (m : Nat) (e : Int) : Nat :=
  min ((e + f.leastExponent).toNat <<< (f.precision - 1) + m)
    (f.exponents <<< (f.precision - 1))

/-- The pattern of infinity, without sign. -/
def infinity (f : Format) : Nat := f.exponents <<< (f.precision - 1)

/-- The nearest 32-bit pattern, without sign, to `num / den`. -/
def singleBits (num den : Nat) : Nat :=
  let (m, e) := single.nearest num den
  single.bits m e

/-- Rounds to 64 bits first and then to 32 bits; `none` if `num / den` is beyond the 64-bit
range.  Rounding twice differs from rounding once next to the middle of two 32-bit numbers. -/
def singleBitsThroughDouble (num den : Nat) : Option Nat :=
  let (m, e) := double.nearest num den
  if double.bits m e = double.infinity then none
  else if 0 ≤ e then some (singleBits (m <<< e.toNat) 1)
  else some (singleBits m (1 <<< (-e).toNat))

/-- A 32-bit number from its pattern without sign and its sign. -/
def toFloat32 (negative : Bool) (bits : Nat) : Float32 :=
  Float32.ofBits (UInt32.ofNat (if negative then bits + 2147483648 else bits))

end Format

end Shading
