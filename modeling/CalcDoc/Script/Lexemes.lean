import CalcDoc.Number.Reader
import CalcDoc.Script.Error

/-!
# From text to lexemes

- `readWord`, `readString`, `readNumeral`: the longest word, the string and the numeral at the
  beginning of a text, with the text after it.
- `Token.ofWord`, `Token.ofNumeral`: the tokens of words and of numerals.
- `Token.read`: the token that a text begins with.
- `Lexemes.ofText`: the lexemes of a whole source. Blanks and comments are skipped; a line feed
  separates statements, except inside parentheses.

Every reader returns a part of the text it was given, so the scan comes to its end.
-/

namespace CalcDoc.Script

/-! ## Words -/

/-- The characters that a name begins with. -/
def isNameStart (c : Char) : Bool :=
  isAlphabetic c || c == '_'

/-- The characters that a name goes on with. -/
def isNamePart (c : Char) : Bool :=
  isAlphanumeric c || c == '_'

/-- The token of a word: a keyword, or else a name. -/
def Token.ofWord (w : Text) : Token :=
  match String.ofList w with
  | "true" => .bool true
  | "false" => .bool false
  | "none" => .absent
  | "and" => .and
  | "or" => .or
  | "not" => .not
  | "del" => .del
  | s => .name s

/-- The word that begins with `c` and goes on in `t`, and the text after it. -/
def readWord (c : Char) (t : Text) : Token × Text :=
  (Token.ofWord (c :: t.takeWhile isNamePart), t.dropWhile isNamePart)

/-! ## Strings -/

/-- The character that an escape stands for. -/
def unescape? : Char → Option Char
  | 'n' => some '\n'
  | 't' => some '\t'
  | '\\' => some '\\'
  | '\'' => some '\''
  | '"' => some '"'
  | _ => none

/-- The contents of a string whose opening quote has been read, and the text after its closing
quote. A string ends on its line. -/
def readString (quote : Char) : Text → Except Fault (Text × Text)
  | [] => .error .unterminatedString
  | c :: t =>
    if c = '\n' then .error .unterminatedString
    else if c = quote then .ok ([], t)
    else if c = '\\' then
      match t with
      | [] => .error .unterminatedString
      | e :: u =>
        match unescape? e with
        | none => .error (.unknownEscape e)
        | some d =>
          match readString quote u with
          | .error fault => .error fault
          | .ok (s, rest) => .ok (d :: s, rest)
    else
      match readString quote t with
      | .error fault => .error fault
      | .ok (s, rest) => .ok (c :: s, rest)

/-! ## Numbers -/

/-- The characters of a numeral without its underscores, whether it is the numeral of a float, and
the text after it. -/
structure Numeral where
  text : Text
  isFloat : Bool
  rest : Text

/-- The numeral with one more character in front. -/
def Numeral.push (c : Char) (n : Numeral) : Numeral :=
  { n with text := c :: n.text }

/-- The rest of a numeral: digits and underscores, one point before any exponent, and exponent
letters, each with an optional sign. Whether the whole is a number shows afterwards. -/
def readNumeral (isFloat : Bool) : Text → Numeral
  | [] => ⟨[], isFloat, []⟩
  | c :: t =>
    if c.isDigit then (readNumeral isFloat t).push c
    else if c = '_' then readNumeral isFloat t
    else if c = '.' ∧ isFloat = false then (readNumeral true t).push c
    else if c = 'e' ∨ c = 'E' then
      match t with
      | [] => ⟨[c], true, []⟩
      | s :: u =>
        if s = '+' ∨ s = '-' then ((readNumeral true u).push s).push c
        else (readNumeral true (s :: u)).push c
    else ⟨[], isFloat, c :: t⟩

/-- The token of a numeral without its underscores, of a float or of an integer. -/
def Token.ofNumeral (isFloat : Bool) (w : Text) : Except Fault Token :=
  if isFloat then
    match readDecimal? w with
    | some x => .ok (.float x)
    | none => .error (.invalidNumber (String.ofList w))
  else
    match int64? (digitsValue w) with
    | some k => .ok (.int k)
    | none => .error (.integerOutOfRange (String.ofList w))

/-- The token of a numeral, and the text after it. -/
def Numeral.value (n : Numeral) : Except Fault (Token × Text) :=
  (Token.ofNumeral n.isFloat n.text).map fun k => (k, n.rest)

/-- The number that begins with the digit `c` and goes on in `t`, and the text after it. -/
def readNumber (c : Char) (t : Text) : Except Fault (Token × Text) :=
  ((readNumeral false t).push c).value

/-! ## Tokens -/

/-- An arithmetic operator, or its augmented assignment if `=` follows at once. -/
def readArith (op : ArithOp) : Text → Token × Text
  | '=' :: t => (.augment op, t)
  | t => (.arith op, t)

/-- The token that begins with `c` and goes on in `t`, and the text after it. The character is no
blank and begins no comment. -/
def Token.read (c : Char) (t : Text) : Except Fault (Token × Text) :=
  match c, t with
  | ';', t => .ok (.separator, t)
  | '(', t => .ok (.openParen, t)
  | ')', t => .ok (.closeParen, t)
  | ',', t => .ok (.comma, t)
  | '+', t => .ok (readArith .add t)
  | '-', t => .ok (readArith .sub t)
  | '%', t => .ok (readArith .mod t)
  | '*', '*' :: t => .ok (readArith .pow t)
  | '*', t => .ok (readArith .mul t)
  | '/', '/' :: t => .ok (readArith .floorDiv t)
  | '/', t => .ok (readArith .div t)
  | '=', '=' :: t => .ok (.compare .eq, t)
  | '=', t => .ok (.assign, t)
  | '!', '=' :: t => .ok (.compare .ne, t)
  | '!', _ => .error .unexpectedBang
  | '<', '=' :: t => .ok (.compare .le, t)
  | '<', t => .ok (.compare .lt, t)
  | '>', '=' :: t => .ok (.compare .ge, t)
  | '>', t => .ok (.compare .gt, t)
  | c, t =>
    if c = '"' ∨ c = '\'' then
      match readString c t with
      | .ok (s, rest) => .ok (.str (String.ofList s), rest)
      | .error fault => .error fault
    else if c.isDigit then readNumber c t
    else if isNameStart c then .ok (readWord c t)
    else .error (.unexpectedCharacter c)

/-! ### Progress -/

theorem length_of_readString {quote : Char} {t s rest : Text}
    (h : readString quote t = .ok (s, rest)) : rest.length ≤ t.length := by
  fun_induction readString quote t generalizing s rest <;> grind

theorem length_rest_readNumeral (isFloat : Bool) (t : Text) :
    (readNumeral isFloat t).rest.length ≤ t.length := by
  fun_induction readNumeral isFloat t <;> grind [Numeral.push]

theorem length_readArith (op : ArithOp) (t : Text) : (readArith op t).2.length ≤ t.length := by
  unfold readArith; split <;> simp

theorem Numeral.value_eq_ok {n : Numeral} {k : Token} {rest : Text} :
    n.value = .ok (k, rest) ↔ Token.ofNumeral n.isFloat n.text = .ok k ∧ n.rest = rest := by
  unfold Numeral.value
  cases Token.ofNumeral n.isFloat n.text with
  | error fault => exact ⟨nofun, nofun⟩
  | ok k' => simp [Except.map]

theorem length_of_readNumber {c : Char} {t : Text} {k : Token} {rest : Text}
    (h : readNumber c t = .ok (k, rest)) : rest.length ≤ t.length := by
  obtain ⟨-, rfl⟩ := Numeral.value_eq_ok.1 h
  exact length_rest_readNumeral false t

/-- The text after a token is no longer than the text after its first character. -/
theorem Token.length_of_read {c : Char} {t : Text} {k : Token} {rest : Text}
    (h : Token.read c t = .ok (k, rest)) : rest.length ≤ t.length := by
  have arith := fun op u => length_readArith op u
  have string := @length_of_readString
  have number := @length_of_readNumber
  have word := (List.dropWhile_suffix isNamePart (l := t)).length_le
  unfold Token.read at h
  split at h <;> grind [readWord]

/-! ## The whole source -/

/-- The lexemes of a text inside `depth` open parentheses. The text goes on on `line`; the scan
for its next token began on line `start`. -/
def scan (depth line start : Nat) : Text → Except Error Lexemes
  | [] => .ok ⟨[], start⟩
  | c :: t =>
    if c = '\n' then
      if 0 < depth then scan depth (line + 1) start t
      else
        match scan depth (line + 1) (line + 1) t with
        | .ok r => .ok { r with items := ⟨start, .separator⟩ :: r.items }
        | .error e => .error e
    else if isBlank c then scan depth line start t
    else if c = '#' then scan depth line start (t.dropWhile (· ≠ '\n'))
    else
      match h : Token.read c t with
      | .error fault => .error (.malformed line fault)
      | .ok (k, rest) =>
        let depth :=
          match k with
          | .openParen => depth + 1
          | .closeParen => depth - 1
          | _ => depth
        match scan depth line line rest with
        | .ok r => .ok { r with items := ⟨start, k⟩ :: r.items }
        | .error e => .error e
termination_by t => t.length
decreasing_by
  all_goals simp only [List.length_cons]
  · omega
  · omega
  · omega
  · exact Nat.lt_succ_of_le (List.dropWhile_suffix _).length_le
  · exact Nat.lt_succ_of_le (Token.length_of_read h)

/-- The lexemes of a source. -/
def Lexemes.ofText (source : Text) : Except Error Lexemes :=
  scan 0 1 1 source

end CalcDoc.Script
