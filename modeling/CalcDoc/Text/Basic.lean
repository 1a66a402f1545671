import CalcDoc.Text.Ranges

/-!
# Texts

A text is the list of its characters. This module holds the character classes that the block
language and the template language share, and trimming by them.

- `isBlank`: the Unicode property White_Space.
- `isSpace`: the blanks between the parts of a tag or of a JSON text.
- `isAlphabetic`, `isAlphanumeric`: the Unicode classes that names are made of.
- `Text.trimStart`, `Text.trimEnd`, `Text.trim`: a text without the blanks at its ends.
- `Text.stripStart?`, `Text.dropOne`: what follows a given beginning.
- `Text.before`: what stands before the rest of a text.
-/

namespace CalcDoc

/-- A text, as the list of its characters. -/
abbrev Text := List Char

/-! ## Character classes -/

/-- The Unicode property White_Space. -/
def isBlank (c : Char) : Bool :=
  let n := c.toNat
  (9 ≤ n && n ≤ 13) || n == 0x20 || n == 0x85 || n == 0xA0 || n == 0x1680 ||
    (0x2000 ≤ n && n ≤ 0x200A) || n == 0x2028 || n == 0x2029 || n == 0x202F || n == 0x205F ||
    n == 0x3000

/-- The blanks that may stand between the parts of a tag, or of a JSON text. -/
def isSpace (c : Char) : Bool :=
  c == ' ' || c == '\n' || c == '\t' || c == '\r'

/-- Whether the character lies in one of the closed ranges of code points. -/
def inRanges (ranges : List (Nat × Nat)) (c : Char) : Bool :=
  ranges.any fun r => r.1 ≤ c.toNat && c.toNat ≤ r.2

/-- The Unicode property Alphabetic. -/
def isAlphabetic (c : Char) : Bool :=
  if c.toNat < 0x80 then c.isAlpha else inRanges Text.alphabeticRanges c

/-- Alphabetic characters and the numerals of the categories Nd, Nl and No. -/
def isAlphanumeric (c : Char) : Bool :=
  isAlphabetic c ||
    if c.toNat < 0x80 then c.isDigit else inRanges Text.numericRanges c

namespace Text

/-! ## Trimming -/

/-- The text without the blanks it starts with. -/
def trimStart (t : Text) : Text :=
  t.dropWhile isBlank

/-- The text without the characters of a class that it ends with. -/
def dropEndWhile (p : Char → Bool) : Text → Text
  | [] => []
  | c :: t =>
    match dropEndWhile p t with
    | [] => if p c then [] else [c]
    | d :: r => c :: d :: r

/-- The text without the blanks it ends with. -/
def trimEnd (t : Text) : Text :=
  dropEndWhile isBlank t

/-- The text without the blanks at its two ends. -/
def trim (t : Text) : Text :=
  trimEnd (trimStart t)

/-- The text without the spaces it starts with. -/
def skipSpace (t : Text) : Text :=
  t.dropWhile isSpace

/-! ## Beginnings -/

/-- What follows `start` at the beginning of a text, if the text begins with it. -/
def stripStart? : (start : Text) → Text → Option Text
  | [], t => some t
  | _ :: _, [] => none
  | c :: start, d :: t => if c = d then stripStart? start t else none

/-- Whether the text begins with `start`. -/
def startsWith (start t : Text) : Bool :=
  (stripStart? start t).isSome

/-- The text after one character, if it begins with it, and else the text itself. -/
def dropOne (c : Char) : Text → Text
  | [] => []
  | d :: t => if d = c then t else d :: t

/-- What stands before `rest` in a text that ends with it. -/
def before (t rest : Text) : Text :=
  t.take (t.length - rest.length)

end Text

end CalcDoc
