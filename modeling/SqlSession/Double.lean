/-!
# `SqlSession.Double`: binary64 numbers

A `Double` is known by its 64 bits, so that signed zeros, infinities
and the payloads of NaNs are kept apart. Arithmetic is exact and then
rounded once: `ofRatio` gives the binary64 number nearest to a quotient
of natural numbers, a tie going to the even significand, and everything
else is built from it.
-/

set_option autoImplicit false

namespace SqlSession

/-- A binary64 number, by its bits. -/
structure Double where
  bits : UInt64
  deriving DecidableEq, Repr, Inhabited

namespace Double

/-- A power of two. -/
def pow2 (n : Nat) : Nat := Nat.pow 2 n

/-- The eleven bits of the exponent. -/
def exponentField (d : Double) : Nat := d.bits.toNat / pow2 52 % pow2 11

/-- The fifty-two bits of the significand. -/
def fractionField (d : Double) : Nat := d.bits.toNat % pow2 52

/-- The sign bit, which zero has as well. -/
def isNegative (d : Double) : Bool := pow2 63 ≤ d.bits.toNat

/-- Not a number: the greatest exponent with a fraction. -/
def isNaN (d : Double) : Bool := d.exponentField == 2047 && d.fractionField != 0

/-- The greatest exponent without a fraction. -/
def isInfinite (d : Double) : Bool := d.exponentField == 2047 && d.fractionField == 0

/-- Either zero. -/
def isZero (d : Double) : Bool := d.exponentField == 0 && d.fractionField == 0

/-- Equality of numbers: a NaN equals nothing, and the zeros are equal. -/
def same (a b : Double) : Bool :=
  !a.isNaN && !b.isNaN && (a.bits == b.bits || (a.isZero && b.isZero))

/-- A number from its sign and the 63 bits below it. -/
def ofMagnitude (negative : Bool) (magnitude : Nat) : Double :=
  ⟨UInt64.ofNat (if negative then pow2 63 + magnitude else magnitude)⟩

/-- The positive zero. -/
def zero : Double := ofMagnitude false 0

/-- The bits of infinity, which end the order of the finite ones. -/
def infiniteMagnitude : Nat := 2047 * pow2 52

def neg (d : Double) : Double :=
  ofMagnitude (!d.isNegative) (d.bits.toNat % pow2 63)

/-! ### Rounding -/

/-- The natural number nearest to a quotient, a half going to the even
neighbour. -/
def roundHalfEven (num den : Nat) : Nat :=
  let q := num / den
  let r := num % den
  if den < 2 * r ∨ (2 * r = den ∧ q % 2 = 1) then q + 1 else q

/-- Numerator and denominator of `num / den / 2 ^ e`. -/
def scaled (num den : Nat) (e : Int) : Nat × Nat :=
  if 0 ≤ e then (num, den * pow2 e.toNat) else (num * pow2 (-e).toNat, den)

/-- The exponent of the highest power of two not above `num / den`. -/
def floorLog2 (num den : Nat) : Int :=
  let guess : Int := (Nat.log2 num : Int) - Nat.log2 den
  let (a, b) := scaled num den guess
  if b ≤ a then guess else guess - 1

/-- The bits of the number nearest to `num / den`; the carry out of the
significand moves on to the next exponent by itself. -/
def roundedMagnitude (num den : Nat) : Nat :=
  if num = 0 then 0 else
    let e := max (floorLog2 num den) (-1022)
    let (a, b) := scaled num den (e - 52)
    min infiniteMagnitude ((e + 1022).toNat * pow2 52 + roundHalfEven a b)

/-- The number nearest to `num / den`, under the given sign. -/
def ofRatio (negative : Bool) (num den : Nat) : Double :=
  ofMagnitude negative (roundedMagnitude num den)

/-- The number nearest to an integer. -/
def ofInt (i : Int) : Double := ofRatio (i < 0) i.natAbs 1

/-! ### Finite arithmetic -/

/-- Numerator and denominator of a finite number without its sign. -/
def magnitudeRatio (d : Double) : Nat × Nat :=
  if d.exponentField = 0 then (d.fractionField, pow2 1074)
  else scaled (pow2 52 + d.fractionField) 1 (1075 - (d.exponentField : Int))

/-- The product of two finite numbers, rounded once. -/
def mul (a b : Double) : Double :=
  let (p, q) := a.magnitudeRatio
  let (r, s) := b.magnitudeRatio
  ofRatio (a.isNegative != b.isNegative) (p * r) (q * s)

/-- The quotient of two finite numbers, the second not zero, rounded
once. -/
def div (a b : Double) : Double :=
  let (p, q) := a.magnitudeRatio
  let (r, s) := b.magnitudeRatio
  ofRatio (a.isNegative != b.isNegative) (p * s) (q * r)

/-- The number nearest to a power of ten. -/
def powerOfTen (k : Nat) : Double := ofRatio false (Nat.pow 10 k) 1

/-! ### Widening -/

/-- The value of a binary32 number, which binary64 holds exactly. A NaN
keeps its payload and becomes a quiet one. -/
def ofSingleBits (bits : UInt32) : Double :=
  let n := bits.toNat
  let negative := decide (pow2 31 ≤ n)
  let exponent := n / pow2 23 % pow2 8
  let fraction := n % pow2 23
  if exponent = 255 then
    let quiet := if fraction = 0 then 0 else fraction * pow2 29 % pow2 51 + pow2 51
    ofMagnitude negative (infiniteMagnitude + quiet)
  else if exponent = 0 then
    ofRatio negative fraction (pow2 149)
  else
    ofMagnitude negative ((exponent + 896) * pow2 52 + fraction * pow2 29)

end Double

end SqlSession
