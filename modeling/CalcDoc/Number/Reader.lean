import CalcDoc.Text.Basic

/-!
# Reading numbers

- `digitsValue`: the number that a list of decimal digits stands for.
- `readInteger?`: an optional sign and at least one digit.
- `readFloat?`: a decimal number, with point and exponent, or the name of an infinity or NaN;
  decimals are rounded to the nearest double.
-/

namespace CalcDoc

/-- The value of a decimal digit. -/
def digitValue (c : Char) : Nat :=
  c.toNat - '0'.toNat

/-- The number that a list of decimal digits stands for. -/
def digitsValue (ds : List Char) : Nat :=
  ds.foldl (fun n c => 10 * n + digitValue c) 0

/-- A text that is a sign or no sign, and the text after it; the flag says minus. -/
def splitSign : Text → Bool × Text
  | '-' :: t => (true, t)
  | '+' :: t => (false, t)
  | t => (false, t)

/-- The integer written as an optional sign and one or more digits. -/
def readInteger? (t : Text) : Option Int :=
  let (negative, ds) := splitSign t
  if ds ≠ [] ∧ ds.all Char.isDigit then
    some (if negative then -(digitsValue ds : Int) else digitsValue ds)
  else none

/-- The exponent that follows the digits of a number: nothing, or `e`, an optional sign and
digits. -/
def readExponent? : Text → Option Int
  | [] => some 0
  | c :: t => if c = 'e' ∨ c = 'E' then readInteger? t else none

/-- The double nearest to `m * 10 ^ e`. -/
def nearestFloat (m : Nat) (e : Int) : Float :=
  if m = 0 then 0 else Float.ofScientific m (e < 0) e.natAbs

/-- The double nearest to a decimal without sign: digits with an optional point among them, at
least one digit in all, and an optional exponent. -/
def readDecimal? (t : Text) : Option Float :=
  let whole := t.takeWhile Char.isDigit
  let rest := t.dropWhile Char.isDigit
  let (places, tail) :=
    match rest with
    | '.' :: r => (r.takeWhile Char.isDigit, r.dropWhile Char.isDigit)
    | r => ([], r)
  if whole = [] ∧ places = [] then none
  else
    (readExponent? tail).map fun e =>
      nearestFloat (digitsValue (whole ++ places)) (e - places.length)

/-- The double that a text names: a decimal, `inf`, `infinity` or `nan` in letters of either
case, each with an optional sign. -/
def readFloat? (t : Text) : Option Float :=
  let (negative, body) := splitSign t
  let name := body.map Char.toLower
  let magnitude :=
    if name = "inf".toList ∨ name = "infinity".toList then some (1 / 0)
    else if name = "nan".toList then some (0 / 0)
    else readDecimal? body
  magnitude.map fun x => if negative then -x else x

end CalcDoc
