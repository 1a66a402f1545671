import CalcDoc.Number.Layout

/-!
# Values

- `Value`: what names stand for and expressions give.
- `Value.text`: the text of a value in a document.
- `Value.truthy`, `Value.toInt?`, `Value.toFloat?`: a value as a condition and as a number.
- `Value.same`: equality within one kind.
-/

namespace CalcDoc.Script

/-- A value of the block language. -/
inductive Value where
  /-- The absent value, written `none`. -/
  | absent
  | bool (b : Bool)
  | int (n : Int64)
  | float (x : Float)
  | str (s : String)

/-- The kinds of values, as type errors name them. -/
inductive Kind where
  | absent | bool | int | float | str
deriving DecidableEq, Repr

/-- The name of a kind. -/
def Kind.name : Kind → String
  | .absent => "none"
  | .bool => "bool"
  | .int => "int"
  | .float => "float"
  | .str => "str"

/-- The integers of the block language run from `-2 ^ 63` to `2 ^ 63 - 1`. -/
def int64? (n : Int) : Option Int64 :=
  if -0x8000000000000000 ≤ n ∧ n < 0x8000000000000000 then some (Int64.ofInt n) else none

/-- The double nearest to an integer. -/
def intToFloat (n : Int64) : Float :=
  Float.ofInt n.toInt

/-- Integral doubles below ten to the sixteenth keep `.0`, so that they do not look like integers;
no double is written with an exponent. -/
def valueLayout : Layout where
  pointed := 16
  positional := none
  tie := .up
  plus := false

/-- The text of a double in a document. -/
def floatText (x : Float) : String :=
  match valueLayout.writeFloat? x with
  | some s => s
  | none => if x.isNaN then "nan" else if x < 0 then "-inf" else "inf"

namespace Value

/-- The kind of a value. -/
def kind : Value → Kind
  | .absent => .absent
  | .bool _ => .bool
  | .int _ => .int
  | .float _ => .float
  | .str _ => .str

/-- The text of a value in a document. -/
def text : Value → String
  | .absent => "none"
  | .bool true => "true"
  | .bool false => "false"
  | .int n => toString n.toInt
  | .float x => floatText x
  | .str s => s

/-- A value as a condition: zero, NaN, the empty string, `false` and `none` do not hold. -/
def truthy : Value → Bool
  | .absent => false
  | .bool b => b
  | .int n => n != 0
  | .float x => !(x == 0) && !x.isNaN
  | .str s => !s.isEmpty

/-- Whether the value counts as a number; the booleans do, as 0 and 1. -/
def isNumber : Value → Bool
  | .bool _ | .int _ | .float _ => true
  | .absent | .str _ => false

/-- A value as an integer. A float is never cut off to one. -/
def toInt? : Value → Option Int64
  | .bool b => some (if b then 1 else 0)
  | .int n => some n
  | .absent | .float _ | .str _ => none

/-- A value as a double. -/
def toFloat? : Value → Option Float
  | .bool b => some (if b then 1 else 0)
  | .int n => some (intToFloat n)
  | .float x => some x
  | .absent | .str _ => none

/-- Equality of two values of one kind; values of two kinds are never the same. NaN is not the
same as itself, and the two zeros are the same. -/
def same : Value → Value → Bool
  | .absent, .absent => true
  | .bool a, .bool b => a == b
  | .int a, .int b => a == b
  | .float x, .float y => x == y
  | .str s, .str t => s == t
  | _, _ => false

end Value

end CalcDoc.Script
