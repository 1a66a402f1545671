import CalcDoc.Text.Basic

/-!
# Quoted strings

- `Json.quote`: a text between quotes, with escapes for the quote, the backslash and the control
  characters below U+0020 only.
- `Json.readChars`: the text of a quoted string, and what follows its closing quote.
-/

namespace CalcDoc.Json

/-! ## Writing -/

/-- A hexadecimal digit in lower case. -/
def hexDigit (n : Nat) : Char :=
  if n < 10 then Char.ofNat ('0'.toNat + n) else Char.ofNat ('a'.toNat + (n - 10))

/-- A character inside quotes. -/
def escape (c : Char) : Text :=
  if c = '"' then ['\\', '"']
  else if c = '\\' then ['\\', '\\']
  else if c = '\x08' then ['\\', 'b']
  else if c = '\x0c' then ['\\', 'f']
  else if c = '\n' then ['\\', 'n']
  else if c = '\r' then ['\\', 'r']
  else if c = '\t' then ['\\', 't']
  else if c.toNat < 0x20 then
    ['\\', 'u', '0', '0', hexDigit (c.toNat / 16), hexDigit (c.toNat % 16)]
  else [c]

/-- A text between quotes. -/
def quote (s : String) : Text :=
  '"' :: s.toList.flatMap escape ++ ['"']

/-! ## Reading -/

/-- The value of a hexadecimal digit in either case. -/
def hexValue? (c : Char) : Option Nat :=
  if '0' ≤ c ∧ c ≤ '9' then some (c.toNat - '0'.toNat)
  else if 'a' ≤ c ∧ c ≤ 'f' then some (c.toNat - 'a'.toNat + 10)
  else if 'A' ≤ c ∧ c ≤ 'F' then some (c.toNat - 'A'.toNat + 10)
  else none

/-- The number that four hexadecimal digits stand for, and the text after them. -/
def readHex4 : Text → Option (Nat × Text)
  | a :: b :: c :: d :: t =>
    match hexValue? a, hexValue? b, hexValue? c, hexValue? d with
    | some a, some b, some c, some d => some (((a * 16 + b) * 16 + c) * 16 + d, t)
    | _, _, _, _ => none
  | _ => none

/-- Whether the number is a first half of a surrogate pair. -/
def isHighSurrogate (n : Nat) : Bool :=
  0xD800 ≤ n && n ≤ 0xDBFF

/-- Whether the number is a second half of a surrogate pair. -/
def isLowSurrogate (n : Nat) : Bool :=
  0xDC00 ≤ n && n ≤ 0xDFFF

/-- The character after `\u`. A character above U+FFFF is written as a surrogate pair. If
`checked` does not hold the character does not matter, and half a pair passes. -/
def readUnicodeEscape (checked : Bool) (t : Text) : Option (Char × Text) :=
  match readHex4 t with
  | none => none
  | some (n, t) =>
    if checked && isLowSurrogate n then none
    else if checked && isHighSurrogate n then
      match t with
      | '\\' :: 'u' :: t =>
        match readHex4 t with
        | some (m, t) =>
          if isLowSurrogate m then
            some (Char.ofNat (0x10000 + (n - 0xD800) * 0x400 + (m - 0xDC00)), t)
          else none
        | none => none
      | _ => none
    else some (Char.ofNat n, t)

/-- The character after a backslash. -/
def readEscape (checked : Bool) : Text → Option (Char × Text)
  | '"' :: t => some ('"', t)
  | '\\' :: t => some ('\\', t)
  | '/' :: t => some ('/', t)
  | 'b' :: t => some ('\x08', t)
  | 'f' :: t => some ('\x0c', t)
  | 'n' :: t => some ('\n', t)
  | 'r' :: t => some ('\r', t)
  | 't' :: t => some ('\t', t)
  | 'u' :: t => readUnicodeEscape checked t
  | _ => none

theorem length_of_readHex4 {t rest : Text} {n : Nat} (h : readHex4 t = some (n, rest)) :
    rest.length < t.length := by
  unfold readHex4 at h
  split at h
  · split at h
    · obtain ⟨-, rfl⟩ := Prod.mk.inj (Option.some.inj h)
      simp only [List.length_cons]
      omega
    · simp at h
  · simp at h

theorem length_of_readUnicodeEscape {checked : Bool} {t rest : Text} {c : Char}
    (h : readUnicodeEscape checked t = some (c, rest)) : rest.length < t.length := by
  have hex := @length_of_readHex4
  unfold readUnicodeEscape at h
  grind

theorem length_of_readEscape {checked : Bool} {t rest : Text} {c : Char}
    (h : readEscape checked t = some (c, rest)) : rest.length < t.length := by
  have unicode := @length_of_readUnicodeEscape
  unfold readEscape at h
  split at h <;> grind

/-- The text of a string whose opening quote has been read, and the text after its closing quote.
Control characters have to be escaped. -/
def readChars (checked : Bool) (t : Text) : Option (Text × Text) :=
  match t with
  | [] => none
  | c :: t =>
    if c = '"' then some ([], t)
    else if c = '\\' then
      match _h : readEscape checked t with
      | none => none
      | some (d, rest) =>
        match readChars checked rest with
        | some (s, rest) => some (d :: s, rest)
        | none => none
    else if c.toNat < 0x20 then none
    else
      match readChars checked t with
      | some (s, rest) => some (c :: s, rest)
      | none => none
termination_by t.length
decreasing_by
  · have := length_of_readEscape _h
    simp only [List.length_cons]
    omega
  · simp

end CalcDoc.Json
