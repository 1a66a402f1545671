/-!
# Exact views of binary floating-point numbers

A finite double is a signed multiple of a power of two. Rounding one to an integer is done on
that exact value, in integer arithmetic.

- `Binary64.magnitude?`: the sign and the exact magnitude of a finite double.
- `Binary64.truncate?`, `Binary64.roundAway?`: the nearest integer toward zero, and the nearest
  integer with halves going away from zero.
- `Binary64.floor`, `Binary64.round`: the same kind of rounding, as doubles again.
- `Binary64.order?`, `Binary64.orderOfInt?`: the order of two doubles, and of an integer and a
  double by their exact values.
- `Binary64.isNormal`: the doubles that are neither zero nor smaller than the format keeps in full
  precision.
- `Binary64.power10`: a power of ten by repeated squaring.
-/

namespace CalcDoc.Binary64

open Float.Model (UnpackedFloat)

/-- A magnitude `mantissa * 2 ^ exponent` and the side of zero that it lies on. -/
structure Magnitude where
  negative : Bool
  mantissa : Nat
  exponent : Int

/-- The exact value of a finite double; none for an infinity and for NaN. -/
def magnitude? (x : Float) : Option Magnitude :=
  match x.toModel.unpack with
  | .zero .positive => some ⟨false, 0, 0⟩
  | .zero .negative => some ⟨true, 0, 0⟩
  | .finite .positive m e _ => some ⟨false, m, e⟩
  | .finite .negative m e _ => some ⟨true, m, e⟩
  | .infinity _ => none
  | .notANumber => none

namespace Magnitude

/-- The integral part of the magnitude. -/
def truncate (x : Magnitude) : Nat :=
  if 0 ≤ x.exponent then x.mantissa <<< x.exponent.toNat
  else x.mantissa >>> (-x.exponent).toNat

/-- The integer nearest to the magnitude; a half goes up. -/
def round (x : Magnitude) : Nat :=
  if 0 ≤ x.exponent then x.mantissa <<< x.exponent.toNat
  else (2 * x.mantissa + 1 <<< (-x.exponent).toNat) >>> ((-x.exponent).toNat + 1)

/-- Whether the magnitude has no fractional part. -/
def isIntegral (x : Magnitude) : Bool :=
  0 ≤ x.exponent || x.mantissa % (1 <<< (-x.exponent).toNat) == 0

/-- The integer with the sign of `x` and the given absolute value. -/
def withSign (x : Magnitude) (n : Nat) : Int :=
  if x.negative then -(n : Int) else n

/-- The double with the sign of `x` and the given absolute value; zero keeps the sign. -/
def signedFloat (x : Magnitude) (n : Nat) : Float :=
  if x.negative then -Float.ofNat n else Float.ofNat n

end Magnitude

/-- The value cut off toward zero; none for an infinity and for NaN. -/
def truncate? (x : Float) : Option Int :=
  (magnitude? x).map fun v => v.withSign v.truncate

/-- The nearest integer, halves away from zero; none for an infinity and for NaN. -/
def roundAway? (x : Float) : Option Int :=
  (magnitude? x).map fun v => v.withSign v.round

/-- The greatest integral double that is not above `x`. An integral double, an infinity and NaN
are their own floor. -/
def floor (x : Float) : Float :=
  match magnitude? x with
  | none => x
  | some v =>
    if v.isIntegral then x
    else if v.negative then -Float.ofNat (v.truncate + 1) else Float.ofNat v.truncate

/-- The nearest integral double, halves away from zero, with the sign of `x`. -/
def round (x : Float) : Float :=
  match magnitude? x with
  | none => x
  | some v => if v.isIntegral then x else v.signedFloat v.round

/-- The order of two doubles; NaN has none. -/
def order? (x y : Float) : Option Ordering :=
  if x < y then some .lt
  else if x == y then some .eq
  else if y < x then some .gt
  else none

/-- The order of an integer and the number `m * 2 ^ e`. -/
def orderOfScaled (n m e : Int) : Ordering :=
  if 0 ≤ e then compare n (m * (1 <<< e.toNat : Nat)) else compare (n * (1 <<< (-e).toNat : Nat)) m

/-- The order of an integer and a double, by their exact values; NaN has none. -/
def orderOfInt? (n : Int) (x : Float) : Option Ordering :=
  match magnitude? x with
  | some v => some (orderOfScaled n (v.withSign v.mantissa) v.exponent)
  | none => order? 0 x

/-- The least positive double of full precision. -/
def minNormal : Float :=
  Float.ofScientific 22250738585072014 true 324

/-- Whether a number is of full precision, which zero is not. -/
def isNormal (x : Float) : Bool :=
  minNormal ≤ x || x ≤ -minNormal

/-- Multiplies `acc` by the powers `a`, `a ^ 2`, `a ^ 4`, … that the binary digits of `n` select,
from the lowest on. -/
def powerBySquares (acc a : Float) (n : Nat) : Float :=
  let acc := if n % 2 = 1 then acc * a else acc
  if h : n / 2 = 0 then acc else powerBySquares acc (a * a) (n / 2)
termination_by n
decreasing_by omega

/-- A power of ten; a negative exponent gives the reciprocal of the positive power. -/
def power10 (n : Int) : Float :=
  let p := powerBySquares 1 10 n.natAbs
  if n < 0 then 1 / p else p

end CalcDoc.Binary64
