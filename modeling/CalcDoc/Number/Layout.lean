import CalcDoc.Number.Shortest

/-!
# Writing numbers

How the digits of a finite double are laid out is a `Layout`; each place that writes doubles has
one layout of its own.

- `Layout`: the choices that the places differ in.
- `Decimal.write`: the text of a decimal in a layout.
- `Layout.writeFloat`: the text of a finite double in a layout.
-/

namespace CalcDoc

/-- The choices in writing a finite number. The *point position* of a number is the count of its
digits before the point, zero or negative for numbers below a tenth. -/
structure Layout where
  /-- The last point position at which an integral number is followed by `.0`. -/
  pointed : Int
  /-- The first and last point position written without an exponent; none if no number has one. -/
  positional : Option (Int × Int)
  /-- Which of two shortest decimals is written if they are equally near. -/
  tie : Tie
  /-- Whether an exponent that is not negative has a plus sign. -/
  plus : Bool

/-- A number without trailing zeros in its digits. -/
def Decimal.strip (d : Decimal) : Decimal :=
  if h : d.digits ≠ 0 ∧ d.digits % 10 = 0 then Decimal.strip ⟨d.digits / 10, d.exponent + 1⟩ else d
termination_by d.digits
decreasing_by omega

/-- The number with all its digits before and after a point, and no exponent. -/
def Decimal.writePositional (d : Decimal) (pointed : Int) : String :=
  let ds := Nat.toDigits 10 d.digits
  if 0 ≤ d.exponent then
    let whole := ds ++ List.replicate d.exponent.toNat '0'
    String.ofList (if whole.length ≤ pointed then whole ++ ['.', '0'] else whole)
  else
    let places := (-d.exponent).toNat
    if places < ds.length then
      String.ofList (ds.take (ds.length - places) ++ '.' :: ds.drop (ds.length - places))
    else
      String.ofList ('0' :: '.' :: List.replicate (places - ds.length) '0' ++ ds)

/-- An exponent, with its sign if it is negative or if `plus` holds. -/
def writeExponent (plus : Bool) (e : Int) : String :=
  if plus && 0 ≤ e then "+" ++ toString e else toString e

/-- The number with one digit before the point and an exponent of ten. -/
def Decimal.writeScientific (d : Decimal) (plus : Bool) : String :=
  let ds := Nat.toDigits 10 d.digits
  let mantissa :=
    match ds with
    | c :: e :: rest => c :: '.' :: e :: rest
    | short => short
  String.ofList mantissa ++ "e" ++ writeExponent plus ((ds.length : Int) + d.exponent - 1)

/-- The text of a decimal without sign in the given layout. -/
def Decimal.write (layout : Layout) (d : Decimal) : String :=
  let d := d.strip
  let position := ((Nat.toDigits 10 d.digits).length : Int) + d.exponent
  match layout.positional with
  | none => d.writePositional layout.pointed
  | some (first, last) =>
    if first ≤ position ∧ position ≤ last then d.writePositional layout.pointed
    else d.writeScientific layout.plus

/-- The text of a finite double: its shortest decimal, with the sign of zero kept. None for an
infinity and for NaN. -/
def Layout.writeFloat? (layout : Layout) (x : Float) : Option String :=
  (Binary64.magnitude? x).map fun v =>
    (if v.negative then "-" else "") ++ (shortestDecimal layout.tie v).write layout

end CalcDoc
