import CalcDoc.Json.Basic
import CalcDoc.Number.Layout
import CalcDoc.Number.Reader

/-!
# JSON numbers

Integers that fit in 64 bits are kept. Of any other number the leading digits that fit in 64 bits
are taken as one double, which is then scaled by a power of ten; so a double that is read may be
an ulp away from the nearest one.

- `Json.readNumber`: the number at the beginning of a text, and the text after it.
- `Json.numberOfText?`: the number that a whole text writes.
- `Json.Number.text`: the text of a number.
-/

namespace CalcDoc.Json

/-! ## Reading -/

/-- Takes digits into a significand of 64 bits, up to the first that no longer fits. Gives the
significand and the count of digits that are left. -/
def absorb (n : Nat) : List Char → Nat × Nat
  | [] => (n, 0)
  | c :: ds =>
    if 10 * n + digitValue c < UInt64.size then absorb (10 * n + digitValue c) ds
    else (n, ds.length + 1)

/-- The double `x * 10 ^ e`, by one multiplication or division for each 308 places; none if it is
too large. -/
def scale (x : Float) (e : Int) : Option Float :=
  if _h : e.natAbs ≤ 308 then
    let power := nearestFloat 1 e.natAbs
    if 0 ≤ e then
      if (x * power).isInf then none else some (x * power)
    else some (x / power)
  else if x == 0 then some x
  else if _h' : 0 ≤ e then none
  else scale (x / nearestFloat 1 308) (e + 308)
termination_by e.natAbs
decreasing_by omega

/-- The digits of an exponent with its sign, and the text after them; none if there are no
digits. -/
def readExponentDigits (t : Text) : Option (Bool × List Char × Text) :=
  let (negative, t) := splitSign t
  let ds := t.takeWhile Char.isDigit
  if ds = [] then none else some (negative, ds, t.dropWhile Char.isDigit)

/-- The double with a significand, a power of ten and an exponent that is written out. An
exponent of `2 ^ 31` or more makes zero of anything if it is negative, and is too large
otherwise. -/
def withExponent (significand : Nat) (e : Int) (negative : Bool) (ds : List Char) :
    Option Float :=
  let n := digitsValue ds
  if 0x80000000 ≤ n then
    if significand ≠ 0 ∧ negative = false then none else some 0
  else scale (Float.ofNat significand) (if negative then e - n else e + n)

/-- A double without sign, from its significand, a power of ten, and the rest of the text, which
may begin with an exponent. If `checked` does not hold the double does not matter, and may be too
large. -/
def readReal (checked : Bool) (significand : Nat) (e : Int) (t : Text) : Option (Float × Text) :=
  let finish (x : Option Float) (rest : Text) :=
    match x with
    | some x => some (x, rest)
    | none => if checked then none else some (0, rest)
  match t with
  | c :: u =>
    if c = 'e' ∨ c = 'E' then
      match readExponentDigits u with
      | some (negative, ds, rest) => finish (withExponent significand e negative ds) rest
      | none => none
    else finish (scale (Float.ofNat significand) e) t
  | [] => finish (scale (Float.ofNat significand) e) t

/-- Whether the text goes on with an exponent. -/
def startsExponent : Text → Bool
  | c :: _ => c == 'e' || c == 'E'
  | [] => false

/-- A number after its sign. -/
def readUnsigned (checked negative : Bool) (t : Text) : Option (Number × Text) :=
  let whole := t.takeWhile Char.isDigit
  let rest := t.dropWhile Char.isDigit
  let signed (x : Float) := if negative then -x else x
  let real (r : Option (Float × Text)) := r.map fun (x, rest) => (.real (signed x), rest)
  match whole with
  | [] => none
  | '0' :: _ :: _ => none
  | whole =>
    let (n, left) := absorb 0 whole
    match rest with
    | '.' :: rest =>
      let places := rest.takeWhile Char.isDigit
      let (m, more) := absorb n places
      if places = [] then none
      else
        real (readReal checked m ((left : Int) - (places.length - more : Nat))
          (rest.dropWhile Char.isDigit))
    | rest =>
      if startsExponent rest || left ≠ 0 then real (readReal checked n left rest)
      else if negative = false then some (.integer n, rest)
      else if n ≠ 0 ∧ n ≤ 0x8000000000000000 then some (.integer (-n), rest)
      else some (.real (-Float.ofNat n), rest)

/-- The number at the beginning of a text, and the text after it. -/
def readNumber (checked : Bool) : Text → Option (Number × Text)
  | '-' :: t => readUnsigned checked true t
  | t => readUnsigned checked false t

/-- The number that a whole text writes, without blanks around it. -/
def numberOfText? (t : Text) : Option Number :=
  match readNumber true t with
  | some (n, []) => some n
  | _ => none

/-! ## Writing -/

/-- Numbers below a hundred thousandth, and from ten to the sixteenth on, have an exponent with its
sign; integral doubles keep `.0`. -/
def numberLayout : Layout where
  pointed := 16
  positional := some (-4, 16)
  tie := .even
  plus := true

/-- The text of a number. -/
def Number.text : Number → String
  | .integer n => toString n
  | .real x => (numberLayout.writeFloat? x).getD "null"

end CalcDoc.Json
