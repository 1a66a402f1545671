import CalcDoc.Json.Number
import CalcDoc.Json.Quoted

/-!
# From JSON values to text

- `Json.text`: a value on one line, without blanks.
-/

namespace CalcDoc.Json

mutual

/-- The text of a value, without blanks. -/
def text : Json → Text
  | .null => "null".toList
  | .bool true => "true".toList
  | .bool false => "false".toList
  | .number n => n.text.toList
  | .str s => quote s
  | .array items => '[' :: itemsText items ++ [']']
  | .object fields => '{' :: fieldsText fields ++ ['}']

/-- The texts of some items, with commas between them. -/
def itemsText : List Json → Text
  | [] => []
  | [v] => v.text
  | v :: w :: vs => v.text ++ ',' :: itemsText (w :: vs)

/-- The texts of some fields, with commas between them. -/
def fieldsText : List (String × Json) → Text
  | [] => []
  | [(x, v)] => quote x ++ ':' :: v.text
  | (x, v) :: f :: fs => quote x ++ ':' :: v.text ++ ',' :: fieldsText (f :: fs)

end

end CalcDoc.Json
