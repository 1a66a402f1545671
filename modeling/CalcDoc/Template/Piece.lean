import CalcDoc.Template.Tag

/-!
# The pieces of a template

A template is text and tags by turns. Two opening braces begin a tag, unless a backslash stands in
front of them: then they are text. A raw block, whose body would be text with the braces of tags in
it, is not read, so a text with one has no pieces.

Some blanks around tags are not written. A trim mark removes all blanks up to the next text on its
side. A tag that opens or closes a block or is a comment, and that stands alone on its line, takes
the whole line away.

- `Piece`: text or a tag.
- `readPieces`: the pieces of a text.
- `trimPieces`: the pieces without the blanks that are not written.
-/

namespace CalcDoc.Template

/-- A piece of a template. -/
inductive Piece where
  | text (t : Text)
  | tag (m : MarkedTag) (alone : Bool)

/-! ## Splitting -/

/-- The text before the next tag, and the tag and all after it. Braces behind a backslash are
text; of two or more backslashes before a tag one is dropped. -/
def readPlain : Text → Text × Text
  | [] => ([], [])
  | '{' :: '{' :: t => ([], '{' :: '{' :: t)
  | '\\' :: '{' :: '{' :: '{' :: '{' :: t =>
    let (u, rest) := readPlain t
    ('{' :: '{' :: '{' :: '{' :: u, rest)
  | '\\' :: '{' :: '{' :: t =>
    let (u, rest) := readPlain t
    ('{' :: '{' :: u, rest)
  | '\\' :: '\\' :: t =>
    match t.dropWhile (· == '\\') with
    | '{' :: '{' :: rest => ('\\' :: t.takeWhile (· == '\\'), '{' :: '{' :: rest)
    | _ =>
      let (u, rest) := readPlain ('\\' :: t)
      ('\\' :: u, rest)
  | c :: t =>
    let (u, rest) := readPlain t
    (c :: u, rest)

/-- The blanks that a line may hold beside a tag that stands alone. -/
def isIndent (c : Char) : Bool :=
  c == ' ' || c == '\t'

/-- Whether the character ends a line. -/
def endsLine (c : Char) : Bool :=
  c == '\n' || c == '\r'

/-- Whether there are only blanks on the line so far, after some more text on it. -/
def blankAfter (blank : Bool) : Text → Bool
  | [] => blank
  | c :: t => blankAfter (endsLine c || (blank && isIndent c)) t

/-- Whether there are only blanks on the rest of the line, and the line ends. The end of the
template ends a line if there are no blanks before it. -/
def restIsBlank (t : Text) : Bool :=
  match t.dropWhile isIndent with
  | c :: _ => endsLine c
  | [] => t.isEmpty

/-- Whether a tag takes its line away if it stands alone there. -/
def Tag.takesLine : Tag → Bool
  | .value _ | .call _ => false
  | .openBlock .. | .elseBlock .. | .otherwise | .close _ | .comment => true

/-- The piece of text, if there is any, before other pieces. -/
def Piece.textBefore (t : Text) (ps : List Piece) : List Piece :=
  if t.isEmpty then ps else .text t :: ps

/-- The pieces of a text that begins on a line with only blanks so far, or not; at most `count`
tags. -/
def readPieces : (count : Nat) → (blank : Bool) → Text → Option (List Piece)
  | 0, _, _ => none
  | count + 1, blank, t =>
    match readPlain t with
    | (plain, '{' :: '{' :: u) =>
      match readTag u with
      | none => none
      | some (m, rest) =>
        let alone := m.tag.takesLine && blankAfter blank plain && restIsBlank rest
        (readPieces count false rest).map fun ps => Piece.textBefore plain (.tag m alone :: ps)
    | (plain, _) => some (Piece.textBefore plain [])

/-! ## Blanks -/

/-- The text without the first end of a line, if it begins with it. -/
def dropLineEnd : Text → Text
  | '\r' :: '\n' :: t => t
  | '\n' :: t => t
  | t => t

/-- The beginning of a text after a trim mark, or after a tag that took its line away. -/
def trimBeginning (trims line : Bool) (t : Text) : Text :=
  if trims then Text.trimStart t
  else if line then dropLineEnd (t.dropWhile isIndent)
  else t

/-- The end of a text before other pieces. -/
def trimEnding (t : Text) : List Piece → Text
  | .tag m alone :: _ =>
    if m.trimsBefore then Text.trimEnd t
    else if alone then Text.dropEndWhile isIndent t
    else t
  | _ => t

/-- Whether the blanks after a tag are trimmed, if those before it would have been. -/
def MarkedTag.trimsOn (m : MarkedTag) (trims : Bool) : Bool :=
  match m.tag with
  | .comment => trims
  | _ => m.trimsAfter

/-- The pieces without the blanks that are not written; `trims` and `line` say whether there was a
trim mark before them, and a tag that took its line away. -/
def trimPieces (trims line : Bool) : List Piece → List Piece
  | [] => []
  | .text t :: ps =>
    .text (trimEnding (trimBeginning trims line t) ps) ::
      trimPieces trims (line && trims && t.all isSpace) ps
  | .tag m alone :: ps =>
    .tag m alone ::
      trimPieces (m.trimsOn trims) (if m.tag.takesLine then alone else line) ps

end CalcDoc.Template
