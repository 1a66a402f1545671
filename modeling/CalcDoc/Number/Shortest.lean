import CalcDoc.Number.Binary64

/-!
# The fewest digits that read back

Every finite double has an interval of reals that round to it. Its shortest decimal is a decimal
with the fewest significant digits in that interval, and of those the nearest to the double.

- `Decimal`: an integer times a power of ten.
- `Tie`: which of two decimals is taken that are equally near.
- `Shortest.Interval`: a double and the ends of its interval, over one denominator.
- `shortestDecimal`: the shortest decimal of a magnitude.
-/

namespace CalcDoc

/-- The number `digits * 10 ^ exponent`. -/
structure Decimal where
  digits : Nat
  exponent : Int

/-- Which of two decimals with the fewest digits is taken if they are equally near. -/
inductive Tie where
  /-- The greater one. -/
  | up
  /-- The one whose last digit is even. -/
  | even
deriving DecidableEq, Repr

namespace Shortest

/-- A positive number, the ends of the interval of reals that round to it, and whether the ends
belong to it; the three numbers are numerators over `denominator`. -/
structure Interval where
  low : Nat
  value : Nat
  high : Nat
  denominator : Nat
  closed : Bool

/-- The interval of a double: half a unit to each side, but only a quarter below a power of two,
where the doubles lie twice as close. Ties round to even, so an even mantissa takes the ends. -/
def Interval.ofMagnitude (v : Binary64.Magnitude) : Interval :=
  let scale := 1 <<< (v.exponent - 2).toNat
  let below := if v.mantissa = 0x10000000000000 ∧ -1074 < v.exponent then 1 else 2
  { low := (4 * v.mantissa - below) * scale
    value := 4 * v.mantissa * scale
    high := (4 * v.mantissa + 2) * scale
    denominator := 1 <<< (2 - v.exponent).toNat
    closed := v.mantissa % 2 = 0 }

/-- The interval in units of `10 ^ k`. -/
def Interval.inUnits (i : Interval) (k : Int) : Interval :=
  let scale := Nat.pow 10 (-k).toNat
  { i with
    low := i.low * scale
    value := i.value * scale
    high := i.high * scale
    denominator := i.denominator * Nat.pow 10 k.toNat }

/-- Whether the integer `n` lies in the interval. -/
def Interval.contains (i : Interval) (n : Nat) : Bool :=
  let p := n * i.denominator
  if i.closed then i.low ≤ p && p ≤ i.high else i.low < p && p < i.high

/-- The nearest of the integers `q` and `q + 1`, between which the value lies. -/
def Interval.nearest (i : Interval) (tie : Tie) (q : Nat) : Nat :=
  match compare (2 * i.value) ((2 * q + 1) * i.denominator) with
  | .lt => q
  | .gt => q + 1
  | .eq => if tie = .even ∧ q % 2 = 0 then q else q + 1

/-- Of the two integers next to the value, the nearest one that lies in the interval. -/
def Interval.neighbour? (i : Interval) (tie : Tie) : Option Nat :=
  let q := i.value / i.denominator
  match i.contains q, i.contains (q + 1) with
  | false, false => none
  | true, false => some q
  | false, true => some (q + 1)
  | true, true => some (i.nearest tie q)

/-- The first multiple of `10 ^ k`, `10 ^ (k - 1)`, … next to the value and in the interval, with
`more` grids to try after the first. -/
def search (i : Interval) (tie : Tie) (k : Int) : (more : Nat) → Decimal
  | 0 => ⟨(i.inUnits k).value / (i.inUnits k).denominator, k⟩
  | more + 1 =>
    match (i.inUnits k).neighbour? tie with
    | some n => ⟨n, k⟩
    | none => search i tie (k - 1) more

/-- The number of digits before the point, or minus the number of zeros after it: the value is
below `10 ^ p` and not below `10 ^ (p - 1)`. No double is so small that 400 places hide it. -/
def Interval.pointPosition (i : Interval) : Int :=
  ((Nat.toDigits 10 (i.value * Nat.pow 10 400 / i.denominator)).length : Int) - 400

end Shortest

/-- A decimal with the fewest digits among those that read back as the given magnitude, and the
nearest of them; `tie` chooses between two that are equally near. Seventeen digits always
suffice. -/
def shortestDecimal (tie : Tie) (v : Binary64.Magnitude) : Decimal :=
  if v.mantissa = 0 then ⟨0, 0⟩
  else
    let i := Shortest.Interval.ofMagnitude v
    Shortest.search i tie (i.pointPosition - 1) 17

end CalcDoc
