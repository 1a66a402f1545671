import CalcDoc.Table

/-!
# JSON values

- `Json`: a JSON value; an object is a table, so its names are in order and distinct.
- `Json.Number`: integers and doubles, which stay apart (`2` is not `2.0`).
- `Json.get?`, `Json.same`: look-up and equality.
-/

namespace CalcDoc

/-- A JSON number. Only integers from `-2 ^ 63` to `2 ^ 64 - 1` are kept as integers. -/
inductive Json.Number where
  | integer (n : Int)
  | real (x : Float)

/-- A JSON value. -/
inductive Json where
  | null
  | bool (b : Bool)
  | number (n : Json.Number)
  | str (s : String)
  | array (items : List Json)
  | object (fields : List (String × Json))

namespace Json

/-- The value of a field, if the value is an object that has it. -/
def get? (j : Json) (x : String) : Option Json :=
  match j with
  | .object fields => Table.get? fields x
  | _ => none

/-- The number as a double. -/
def Number.toFloat : Number → Float
  | .integer n => Float.ofInt n
  | .real x => x

/-- Equality of numbers; an integer never equals a double. -/
def Number.same : Number → Number → Bool
  | .integer m, .integer n => m == n
  | .real x, .real y => x == y
  | _, _ => false

mutual

/-- Equality of values. -/
def same : Json → Json → Bool
  | .null, .null => true
  | .bool a, .bool b => a == b
  | .number m, .number n => m.same n
  | .str s, .str t => s == t
  | .array xs, .array ys => sameItems xs ys
  | .object xs, .object ys => sameFields xs ys
  | _, _ => false

/-- Equality of the items of two arrays. -/
def sameItems : List Json → List Json → Bool
  | [], [] => true
  | x :: xs, y :: ys => same x y && sameItems xs ys
  | _, _ => false

/-- Equality of the fields of two objects. -/
def sameFields : List (String × Json) → List (String × Json) → Bool
  | [], [] => true
  | (a, x) :: xs, (b, y) :: ys => a == b && same x y && sameFields xs ys
  | _, _ => false

end

end Json

end CalcDoc
