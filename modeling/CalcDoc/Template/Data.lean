import CalcDoc.Json.Number
import CalcDoc.Number.Binary64

/-!
# Data in templates

- `Json.display`: what is written for a value.
- `Json.isTruthy`: a value as a condition.
- `Json.order?`: the order of two values, if they have one.
- `Json.part?`, `Json.size`: what an array, object or string is made of.
-/

namespace CalcDoc.Json

/-- The texts one after the other, with a comma and a space between neighbours. -/
def joinDisplays : List Text → Text
  | [] => []
  | [t] => t
  | t :: u :: ts => t ++ ',' :: ' ' :: joinDisplays (u :: ts)

mutual

/-- What a template writes for a value: a string as it is, nothing for null, and no fields of an
object. -/
def display : Json → Text
  | .null => []
  | .bool b => (if b then "true" else "false").toList
  | .number n => n.text.toList
  | .str s => s.toList
  | .array items => '[' :: joinDisplays (displays items) ++ [']']
  | .object _ => "[object]".toList

/-- What is written for each of some values. -/
def displays : List Json → List Text
  | [] => []
  | v :: vs => v.display :: displays vs

end

/-- Whether a number counts as true. Zero does not, nor do doubles smaller than the format keeps
in full precision. -/
def Number.isTruthy : Number → Bool
  | .integer n => n ≠ 0
  | .real x => Binary64.isNormal x

/-- Whether a value counts as true. Null, what is empty and zero do not; zero does if
`includeZero` holds. -/
def isTruthy (includeZero : Bool) : Json → Bool
  | .null => false
  | .bool b => b
  | .number n => includeZero || n.isTruthy
  | .str s => s ≠ ""
  | .array items => !items.isEmpty
  | .object fields => !fields.isEmpty

/-- The order of two numbers, by their exact values. -/
def Number.order? : Number → Number → Option Ordering
  | .integer m, .integer n => some (compare m n)
  | .integer m, .real y => Binary64.orderOfInt? m y
  | .real x, .integer n => (Binary64.orderOfInt? n x).map Ordering.swap
  | .real x, .real y => Binary64.order? x y

/-- The order of two values: of numbers, strings, truth values, and of a number and a string that
writes one. -/
def order? : Json → Json → Option Ordering
  | .number m, .number n => m.order? n
  | .str s, .str t => some (compare s t)
  | .bool a, .bool b => some (compare a b)
  | .number m, .str t => (numberOfText? t.toList).bind m.order?
  | .str s, .number n => (numberOfText? s.toList).bind fun m => m.order? n
  | _, _ => none

/-- The part of an array at a position, or of an object with a name, if there is one. -/
def part? : Json → Json → Option Json
  | .array items, .number (.integer i) => if i < 0 then none else items[i.toNat]?
  | .object fields, .str x => Table.get? fields x
  | _, _ => none

/-- The count of parts of an array or an object, or of the bytes of a string. -/
def size : Json → Nat
  | .array items => items.length
  | .object fields => fields.length
  | .str s => s.utf8ByteSize
  | _ => 0

end CalcDoc.Json
