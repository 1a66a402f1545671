import CalcDoc.Json.Reader

/-!
# Literals in tags

A literal is a JSON value, with two liberties: a string may stand between apostrophes, and a number
ends where a name could not go on.

- `isNameChar`: the characters that names in tags are made of.
- `skipLiteral`: the text after a literal, by the look of the text alone.
- `readLiteral`: the literal at the beginning of a text, if there is one, and its value, if it is
  well formed.
-/

namespace CalcDoc.Template

/-- The characters of a name in a tag: ASCII letters and digits, four signs, and all characters
that are not ASCII. -/
def isNameChar (c : Char) : Bool :=
  c.isAlphanum || c == '-' || c == '_' || c == '$' || c == ':' || 0x80 ≤ c.toNat

/-- Whether a name could go on at the beginning of the text. -/
def continuesName : Text → Bool
  | c :: _ => isNameChar c
  | [] => false

/-- The text after a word, unless a name goes on there. -/
def skipWord (word : String) (t : Text) : Option Text :=
  match Text.stripStart? word.toList t with
  | some rest => if continuesName rest then none else some rest
  | none => none

/-- Whether the character may stand after a backslash in a string between the given quotes. -/
def isEscape (quote c : Char) : Bool :=
  c == quote || c == '\\' || c == '/' || c == 'b' || c == 'f' || c == 'n' || c == 'r' || c == 't'

/-- Whether the character is a hexadecimal digit. -/
def isHex (c : Char) : Bool :=
  (Json.hexValue? c).isSome

/-- The text after a string whose opening quote has been read. -/
def skipQuoted (quote : Char) : Text → Option Text
  | '\\' :: 'u' :: c₁ :: c₂ :: c₃ :: c₄ :: t =>
    if isHex c₁ && isHex c₂ && isHex c₃ && isHex c₄ then skipQuoted quote t else none
  | '\\' :: c :: t => if isEscape quote c then skipQuoted quote t else none
  | c :: t => if c = quote then some t else if c = '\\' then none else skipQuoted quote t
  | [] => none

/-- The text after a string in either kind of quotes. -/
def skipString : Text → Option Text
  | '"' :: t => skipQuoted '"' t
  | '\'' :: t => skipQuoted '\'' t
  | _ => none

/-- The text after an exponent, if the text begins with one, and else the text itself. -/
def skipExponent : Text → Text
  | 'E' :: t =>
    match (Text.dropOne '-' t).takeWhile Char.isDigit with
    | [] => 'E' :: t
    | _ => (Text.dropOne '-' t).dropWhile Char.isDigit
  | t => t

/-- The text after a number. -/
def skipNumber (t : Text) : Option Text :=
  let t := Text.dropOne '-' t
  match t.takeWhile Char.isDigit with
  | [] => none
  | _ =>
    let t := (Text.dropOne '.' (t.dropWhile Char.isDigit)).dropWhile Char.isDigit
    let t := skipExponent t
    if continuesName t then none else some t

/-- The text after any items of which each stands behind a comma; at most `count`. -/
def skipItems (item : Text → Option Text) : (count : Nat) → Text → Text
  | 0, t => t
  | count + 1, t =>
    match Text.skipSpace t with
    | ',' :: u =>
      match item (Text.skipSpace u) with
      | some rest => skipItems item count rest
      | none => t
    | _ => t

/-- The text after a sequence in brackets, of which the opening one has been read. The first item
need not be there. -/
def skipSequence (item : Text → Option Text) (close : Char) (t : Text) : Option Text :=
  let t := (item (Text.skipSpace t)).getD t
  match Text.skipSpace (skipItems item t.length t) with
  | c :: t => if c = close then some t else none
  | [] => none

/-- The text after a field of an object. -/
def skipField (value : Text → Option Text) (t : Text) : Option Text :=
  match skipString t with
  | none => none
  | some t =>
    match Text.skipSpace t with
    | ':' :: t => value (Text.skipSpace t)
    | _ => none

/-- The text after a literal that has at most `depth` arrays and objects inside each other. -/
def skipLiteral : (depth : Nat) → Text → Option Text
  | 0, _ => none
  | depth + 1, t =>
    match t with
    | '"' :: _ => skipString t
    | '\'' :: _ => skipString t
    | '[' :: t => skipSequence (skipLiteral depth) ']' t
    | '{' :: t => skipSequence (skipField (skipLiteral depth)) '}' t
    | t =>
      match skipNumber t with
      | some rest => some rest
      | none =>
        match skipWord "null" t with
        | some rest => some rest
        | none =>
          match skipWord "true" t with
          | some rest => some rest
          | none => skipWord "false" t

/-- The inside of a string between apostrophes as it is written between quotes. -/
def requote : Text → Text
  | '\\' :: '\'' :: t => '\'' :: requote t
  | '"' :: t => '\\' :: '"' :: requote t
  | c :: t => c :: requote t
  | [] => []

/-- The value of a literal, if it is well formed. -/
def literalValue? : Text → Option Json
  | '\'' :: t => Json.ofText? ('"' :: requote t.dropLast ++ ['"'])
  | t => Json.ofText? t

/-- The literal at the beginning of a text: its value, if it is well formed, and the text after
it. -/
def readLiteral (t : Text) : Option (Option Json × Text) :=
  (skipLiteral (t.length + 1) t).map fun rest => (literalValue? (Text.before t rest), rest)

end CalcDoc.Template
