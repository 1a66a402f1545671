import CalcDoc.Json.Number
import CalcDoc.Json.Quoted

/-!
# From text to JSON values

- `Json.readValue`: the value at the beginning of a text, and the text after it.
- `Json.skipValue`: the text after a value that does not matter.
- `Json.ofText?`: the value of a whole text.

A value that matters is nested at most 127 deep. Its numbers are not too large, and its strings
hold no half of a surrogate pair.
-/

namespace CalcDoc.Json

/-- The string at the beginning of a text, and the text after it. -/
def readString (checked : Bool) (t : Text) : Option (String × Text) :=
  match Text.skipSpace t with
  | '"' :: t => (readChars checked t).map fun (s, rest) => (String.ofList s, rest)
  | _ => none

/-- The items of an array after its opening bracket, if there are any; at most `count`. -/
def readItems (value : Text → Option (Json × Text)) :
    (count : Nat) → Text → Option (List Json × Text)
  | 0, _ => none
  | count + 1, t =>
    match value t with
    | none => none
    | some (v, t) =>
      match Text.skipSpace t with
      | ']' :: t => some ([v], t)
      | ',' :: t => (readItems value count t).map fun (vs, t) => (v :: vs, t)
      | _ => none

/-- The name of a field and the colon after it. -/
def readName (checked : Bool) (t : Text) : Option (String × Text) :=
  match readString checked t with
  | none => none
  | some (x, t) =>
    match Text.skipSpace t with
    | ':' :: t => some (x, t)
    | _ => none

/-- The fields of an object after its opening brace, if there are any; at most `count`. -/
def readFields (checked : Bool) (value : Text → Option (Json × Text)) :
    (count : Nat) → Text → Option (List (String × Json) × Text)
  | 0, _ => none
  | count + 1, t =>
    match readName checked t with
    | none => none
    | some (x, t) =>
      match value t with
      | none => none
      | some (v, t) =>
        match Text.skipSpace t with
        | '}' :: t => some ([(x, v)], t)
        | ',' :: t => (readFields checked value count t).map fun (fs, t) => ((x, v) :: fs, t)
        | _ => none

/-- The object with the given fields; of two with one name the last counts. -/
def ofFields (fields : List (String × Json)) : Json :=
  .object (fields.foldl (fun t (x, v) => Table.insert t x v) [])

/-- A value whose parts are read by `inner`; none if it may have no parts. -/
def readWith (checked : Bool) (inner : Option (Text → Option (Json × Text))) (t : Text) :
    Option (Json × Text) :=
  match Text.skipSpace t, inner with
  | 'n' :: 'u' :: 'l' :: 'l' :: t, _ => some (.null, t)
  | 't' :: 'r' :: 'u' :: 'e' :: t, _ => some (.bool true, t)
  | 'f' :: 'a' :: 'l' :: 's' :: 'e' :: t, _ => some (.bool false, t)
  | '"' :: t, _ => (readChars checked t).map fun (s, rest) => (.str (String.ofList s), rest)
  | '[' :: _, none => none
  | '{' :: _, none => none
  | '[' :: t, some value =>
    match Text.skipSpace t with
    | ']' :: t => some (.array [], t)
    | t => (readItems value t.length t).map fun (vs, t) => (.array vs, t)
  | '{' :: t, some value =>
    match Text.skipSpace t with
    | '}' :: t => some (.object [], t)
    | t => (readFields checked value t.length t).map fun (fs, t) => (ofFields fs, t)
  | t, _ => (readNumber checked t).map fun (n, t) => (.number n, t)

/-- The value at the beginning of a text that has at most `depth` arrays and objects inside each
other. -/
def readValue (checked : Bool) : (depth : Nat) → Text → Option (Json × Text)
  | 0, t => readWith checked none t
  | depth + 1, t => readWith checked (some (readValue checked depth)) t

/-- The most arrays and objects inside each other in a value that matters. -/
def maxNesting : Nat := 127

/-- The text after a value that does not matter; it may be nested as deep as it likes. -/
def skipValue (t : Text) : Option Text :=
  (readValue false t.length t).map (·.2)

/-- The value of a text that holds one value and blanks. -/
def ofText? (t : Text) : Option Json :=
  match readValue true maxNesting t with
  | some (v, rest) => if Text.skipSpace rest = [] then some v else none
  | none => none

end CalcDoc.Json
