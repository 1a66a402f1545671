import CalcDoc.Number.Reader
import CalcDoc.Script.Arithmetic

/-!
# Built-in functions

- `Builtin.ofName?`: the function that a name calls.
- `Builtin.apply`: its value for some arguments.
-/

namespace CalcDoc.Script

/-- The function that a name calls. -/
def Builtin.ofName? : String → Option Builtin
  | "abs" => some .abs
  | "min" => some .min
  | "max" => some .max
  | "round" => some .round
  | "int" => some .int
  | "float" => some .float
  | "str" => some .str
  | "len" => some .len
  | _ => none

/-- The integer nearest to a double in some way of rounding. A double of magnitude `2 ^ 63` or
more overflows, the lowest integer of the language included, and so do NaN and the infinities. -/
def nearestInt (f : Builtin) (n : Option Int) : Except Error Value :=
  match n with
  | some n =>
    if n.natAbs < 0x8000000000000000 then checkedInt (.builtin f) n
    else .error (.overflow (.builtin f))
  | none => .error (.overflow (.builtin f))

/-- The absolute value of a number. -/
def absValue (v : Value) : Except Error Value :=
  match v with
  | .float x => .ok (.float x.abs)
  | v =>
    match v.toInt? with
    | some n => checkedInt (.builtin .abs) n.toInt.natAbs
    | none => .error (.type (.notNumber .abs v.kind))

/-- A number as a double, for a function that needs one. -/
def needNumber (f : Builtin) (v : Value) : Except Error Float :=
  match v.toFloat? with
  | some x => .ok x
  | none => .error (.type (.notNumber f v.kind))

/-- The nearest integer, halves away from zero. The number is taken as a double. -/
def roundValue (v : Value) : Except Error Value :=
  match needNumber .round v with
  | .ok x => nearestInt .round (Binary64.roundAway? x)
  | .error e => .error e

/-- The number rounded to some decimal places, as a double; negative places round tens, hundreds
and so on. -/
def roundPlaces (v places : Value) : Except Error Value :=
  match needNumber .round v with
  | .error e => .error e
  | .ok x =>
    match places.toInt? with
    | none => .error (.type .roundDigits)
    | some n =>
      let factor := Binary64.power10 (max (-308) (min 308 n.toInt))
      .ok (.float (Binary64.round (x * factor) / factor))

/-- The value as an integer: floats are cut off, strings are read. -/
def intValue (v : Value) : Except Error Value :=
  match v with
  | .float x => nearestInt .int (Binary64.truncate? x)
  | .str s =>
    match (readInteger? (Text.trim s.toList)).bind int64? with
    | some n => .ok (.int n)
    | none => .error (.type (.convertText s .int))
  | v =>
    match v.toInt? with
    | some n => .ok (.int n)
    | none => .error (.type (.convertKind v.kind .int))

/-- The value as a double; strings are read. -/
def floatValue (v : Value) : Except Error Value :=
  match v with
  | .str s =>
    match readFloat? (Text.trim s.toList) with
    | some x => .ok (.float x)
    | none => .error (.type (.convertText s .float))
  | v =>
    match v.toFloat? with
    | some x => .ok (.float x)
    | none => .error (.type (.convertKind v.kind .float))

/-- The number of code points of a string. -/
def lenValue (v : Value) : Except Error Value :=
  match v with
  | .str s => .ok (.int (Int64.ofNat s.length))
  | v => .error (.type (.noLength v.kind))

/-- The first of the values that no later one is better than; `better` is how a better value
compares with the best so far. -/
def bestValue (better : Ordering) (best : Value) : List Value → Except Error Value
  | [] => .ok best
  | v :: vs =>
    match v.order best with
    | .ok o => bestValue better (if o = better then v else best) vs
    | .error e => .error e

/-- The value of a function for some arguments. -/
def Builtin.apply (f : Builtin) (args : List Value) : Except Error Value :=
  match f, args with
  | .abs, [v] => absValue v
  | .round, [v] => roundValue v
  | .round, [v, places] => roundPlaces v places
  | .int, [v] => intValue v
  | .float, [v] => floatValue v
  | .str, [v] => .ok (.str v.text)
  | .len, [v] => lenValue v
  | .min, v :: vs => bestValue .lt v vs
  | .max, v :: vs => bestValue .gt v vs
  | .min, [] => .error (.arity .min .atLeastOne 0)
  | .max, [] => .error (.arity .max .atLeastOne 0)
  | .round, args => .error (.arity .round .oneOrTwo args.length)
  | f, args => .error (.arity f .one args.length)

end CalcDoc.Script
