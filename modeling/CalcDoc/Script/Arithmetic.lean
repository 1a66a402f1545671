import CalcDoc.Number.Binary64
import CalcDoc.Script.Error

/-!
# Operations on values

- `Value.order`, `Value.looseEq`: numbers compare by value across their kinds, strings by code
  points.
- `intArith`, `floatArith`: the operators on two integers and on two doubles.
- `Value.arith`, `Value.compare`, `Value.sign`: the operators on values of any kind.

An integer result is the exact one, or an overflow if it leaves the 64-bit range.
-/

namespace CalcDoc.Script

/-! ## Comparison -/

/-- The order of two values: of strings, or of numbers by value. Two integers compare exactly;
otherwise both are taken as doubles. -/
def Value.order (a b : Value) : Except Error Ordering :=
  match a, b with
  | .str s, .str t => .ok (Ord.compare s t)
  | a, b =>
    match a.toInt?, b.toInt? with
    | some m, some n => .ok (Ord.compare m.toInt n.toInt)
    | _, _ =>
      match a.toFloat?, b.toFloat? with
      | some x, some y =>
        match Binary64.order? x y with
        | some o => .ok o
        | none => .error (.type .orderNaN)
      | _, _ => .error (.type (.compare a.kind b.kind))

/-- Equality as the block language sees it: numbers are equal by value, other values only to
values of their kind. -/
def Value.looseEq (a b : Value) : Bool :=
  if a.isNumber && b.isNumber then
    match a.order b with
    | .ok o => o.isEq
    | .error _ => false
  else a.same b

/-- The answer of a comparison. Equality is defined between all values. -/
def Value.compare (op : CompareOp) (a b : Value) : Except Error Value :=
  match op with
  | .eq => .ok (.bool (a.looseEq b))
  | .ne => .ok (.bool (!a.looseEq b))
  | op =>
    match a.order b with
    | .ok o => .ok (.bool (op.holds o))
    | .error e => .error e

/-! ## Numbers -/

/-- The operators on two doubles. Division, its floor and its remainder need a divisor that is not
zero; the remainder has the sign of the divisor. -/
def floatArith (op : ArithOp) (x y : Float) : Except Error Value :=
  match op with
  | .add => .ok (.float (x + y))
  | .sub => .ok (.float (x - y))
  | .mul => .ok (.float (x * y))
  | .pow => .ok (.float (x.pow y))
  | .div => if y == 0 then .error .divisionByZero else .ok (.float (x / y))
  | .floorDiv =>
    if y == 0 then .error .divisionByZero else .ok (.float (Binary64.floor (x / y)))
  | .mod =>
    if y == 0 then .error .divisionByZero
    else .ok (.float (x - y * Binary64.floor (x / y)))

/-- An exact result, if it is an integer of the language. -/
def checkedInt (what : Overflowing) (n : Int) : Except Error Value :=
  match int64? n with
  | some k => .ok (.int k)
  | none => .error (.overflow what)

/-- The exact power, if it is an integer of the language and the exponent is below `2 ^ 32`. Only
0, 1 and -1 have powers in range with an exponent of 64 or more. -/
def intPower? (a : Int) (n : Nat) : Option Int64 :=
  if UInt32.size ≤ n then none
  else if n < 64 then int64? (a.pow n)
  else if a.natAbs ≤ 1 then int64? (a.pow (n % 2 + 2))
  else none

/-- The operators on two integers. `/` and negative exponents give doubles; `//` rounds to the
floor and `%` has the sign of the divisor. -/
def intArith (op : ArithOp) (a b : Int64) : Except Error Value :=
  match op with
  | .add => checkedInt (.arith .add) (a.toInt + b.toInt)
  | .sub => checkedInt (.arith .sub) (a.toInt - b.toInt)
  | .mul => checkedInt (.arith .mul) (a.toInt * b.toInt)
  | .div => floatArith .div (intToFloat a) (intToFloat b)
  | .floorDiv =>
    if b = 0 then .error .divisionByZero
    else checkedInt (.arith .floorDiv) (a.toInt.fdiv b.toInt)
  | .mod =>
    if b = 0 then .error .divisionByZero
    else
      -- The quotient that belongs to this remainder is out of range.
      if a.toInt = -0x8000000000000000 ∧ b.toInt = -1 then .error (.overflow (.arith .mod))
      else checkedInt (.arith .mod) (a.toInt.fmod b.toInt)
  | .pow =>
    if b < 0 then floatArith .pow (intToFloat a) (intToFloat b)
    else
      match intPower? a.toInt b.toInt.toNat with
      | some k => .ok (.int k)
      | none => .error (.overflow (.arith .pow))

/-! ## Strings -/

/-- The most bytes of UTF-8 that a string made by `+` or `*` may have. -/
def maxStringBytes : Nat := 0x1000000

/-- The string `n` times in a row, by doubling. -/
def repeatString (s : String) (n : Nat) : String :=
  if _h : n = 0 then ""
  else
    let half := repeatString s (n / 2)
    if n % 2 = 0 then half ++ half else half ++ half ++ s
termination_by n
decreasing_by omega

/-- Two strings one after the other. -/
def concatStrings (s t : String) : Except Error Value :=
  if s.utf8ByteSize + t.utf8ByteSize ≤ maxStringBytes then .ok (.str (s ++ t))
  else .error (.overflow (.arith .add))

/-- A string as often as `n` says, and not at all for a negative `n`. -/
def timesString (s : String) (n : Int64) : Except Error Value :=
  let times := n.toInt.toNat
  if s.utf8ByteSize * times ≤ maxStringBytes then .ok (.str (repeatString s times))
  else .error (.overflow (.arith .mul))

/-! ## Operators on all values -/

/-- The operators on two numbers: on integers if both are, else on doubles. -/
def Value.numberArith (op : ArithOp) (a b : Value) : Except Error Value :=
  match a.toInt?, b.toInt? with
  | some m, some n => intArith op m n
  | _, _ =>
    match a.toFloat?, b.toFloat? with
    | some x, some y => floatArith op x y
    | _, _ => .error (.type (.operands op a.kind b.kind))

/-- The arithmetic operators: strings are joined by `+` and repeated by `*` with an integer on
either side; all else is for numbers. -/
def Value.arith (op : ArithOp) (a b : Value) : Except Error Value :=
  match op, a, b with
  | .add, .str s, .str t => concatStrings s t
  | .mul, .str s, .int n => timesString s n
  | .mul, .int n, .str s => timesString s n
  | .mul, .str s, .bool b => timesString s (if b then 1 else 0)
  | .mul, .bool b, .str s => timesString s (if b then 1 else 0)
  | op, a, b => a.numberArith op b

/-- A sign in front of a number; a boolean becomes an integer. -/
def Value.sign (op : SignOp) (a : Value) : Except Error Value :=
  match op, a with
  | .minus, .float x => .ok (.float (-x))
  | .plus, .float x => .ok (.float x)
  | op, a =>
    match op, a.toInt? with
    | .minus, some n => checkedInt .negation (-n.toInt)
    | .plus, some n => .ok (.int n)
    | op, none => .error (.type (.sign op a.kind))

end CalcDoc.Script
