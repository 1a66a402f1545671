import CalcDoc.Template.Param

/-!
# Tags

There are no partials, decorators and raw blocks. What begins with the braces and the mark of one,
as `{{> name}}`, `{{* name}}`, `{{#* inline "name"}}` and `{{{{name}}}}` do, is read as no tag, and
makes its template malformed.

- `Tag`: what a tag says.
- `MarkedTag`: a tag with its trim marks, the `~` next to its braces.
- `readTag`: the tag at the beginning of a text, and the text after it.
-/

namespace CalcDoc.Template

/-- What a tag says. -/
inductive Tag where
  | value (p : Param)
  | call (c : Call)
  | openBlock (c : Call) (binders : List String)
  /-- The rest of a block is a block of its own. -/
  | elseBlock (c : Call) (binders : List String)
  | otherwise
  /-- The end of a block with a name; a call in parentheses is no name. -/
  | close (name : Option String)
  | comment

/-- A tag, and whether the blanks before and after it are trimmed. -/
structure MarkedTag where
  tag : Tag
  trimsBefore : Bool
  trimsAfter : Bool

/-- Whether the text begins with a trim mark, and the text after it. -/
def readMark (t : Text) : Bool × Text :=
  match Text.skipSpace t with
  | '~' :: t => (true, t)
  | _ => (false, t)

/-- The end of a tag with the given braces: whether there is a trim mark, and the text after
it. -/
def readEnd (braces : String) (t : Text) : Option (Bool × Text) :=
  let (mark, t) := readMark t
  (Text.stripStart? braces.toList (Text.skipSpace t)).map fun rest => (mark, rest)

/-- The names that a block gives to values, and the text after them; none are needed. -/
def readBinders (t : Text) : List String × Text :=
  match Text.skipSpace t with
  | 'a' :: 's' :: u =>
    match Text.skipSpace u with
    | '|' :: u =>
      match readName (Text.skipSpace u) with
      | none => ([], t)
      | some (x, u) =>
        match Text.skipSpace u with
        | '|' :: u => ([x], u)
        | u =>
          match readName u with
          | none => ([], t)
          | some (y, u) =>
            match Text.skipSpace u with
            | '|' :: u => ([x, y], u)
            | _ => ([], t)
    | _ => ([], t)
  | _ => ([], t)

/-- A helper with its parameters and binders, and the text after them. -/
def readOpening (t : Text) : Option (Call × List String × Text) :=
  match readLine (readParam t.length) (Text.skipSpace t) with
  | none => none
  | some (c, t) => some (c, readBinders t)

/-- A call with parameters, or a value. -/
def readExpression (t : Text) : Option (Tag × Text) :=
  let t := Text.skipSpace t
  match readCall (readParam t.length) t with
  | some (c, rest) => some (.call c, rest)
  | none => (readValue t).map fun (p, rest) => (.value p, rest)

/-- Completes a tag that begins with a trim mark or without one. -/
def finishTag (mark : Bool) (braces : String) (r : Option (Tag × Text)) :
    Option (MarkedTag × Text) :=
  match r with
  | none => none
  | some (tag, t) => (readEnd braces t).map fun (after, rest) => (⟨tag, mark, after⟩, rest)

/-- The text after the word that begins the other part of a block. -/
def skipElse (t : Text) : Option Text :=
  match t with
  | '^' :: t => some t
  | t => Text.stripStart? "else".toList t

/-- A tag that begins the other part of a block. -/
def readElse (mark : Bool) (t : Text) : Option (MarkedTag × Text) :=
  match skipElse t with
  | none => none
  | some t =>
    match finishTag mark "\x7d\x7d" (some (.otherwise, t)) with
    | some r => some r
    | none =>
      finishTag mark "\x7d\x7d" ((readOpening t).map fun (c, xs, rest) => (.elseBlock c xs, rest))

/-- The text after the first place where `stop` stands. -/
def skipPast (stop : Text) : Text → Option Text
  | [] => none
  | c :: t =>
    match Text.stripStart? stop (c :: t) with
    | some rest => some rest
    | none => skipPast stop t

/-- The text after a comment, of which the opening braces have been read. A comment that begins
with two dashes ends with two dashes before the braces, if they stand anywhere. -/
def skipComment : Text → Option Text
  | '!' :: t =>
    let dashed := Text.stripStart? "--".toList (Text.skipSpace t)
    match dashed.bind (skipPast "--\x7d\x7d".toList) with
    | some rest => some rest
    | none => skipPast "\x7d\x7d".toList t
  | _ => none

/-- A tag in three braces, of which two have been read. -/
def readTriple (t : Text) : Option (MarkedTag × Text) :=
  match t with
  | '{' :: t =>
    let (mark, t) := readMark t
    finishTag mark "\x7d\x7d\x7d" (readExpression t)
  | _ => none

/-- A tag that is no comment, of which the opening braces and a trim mark have been read. The marks
`>` and `*` and a fourth brace, of partials, decorators and raw blocks, begin no tag. -/
def readMarked (mark : Bool) (t : Text) : Option (MarkedTag × Text) :=
  match t with
  | '#' :: t =>
    finishTag mark "\x7d\x7d" ((readOpening t).map fun (c, xs, rest) => (.openBlock c xs, rest))
  | '/' :: t =>
    finishTag mark "\x7d\x7d" ((readValue (Text.skipSpace t)).map fun (p, rest) =>
      match p with
      | .path p => (.close (some p.raw), rest)
      | _ => (.close none, rest))
  | '&' :: t =>
    finishTag mark "\x7d\x7d" ((readValue (Text.skipSpace t)).map fun (p, rest) => (.value p, rest))
  | '{' :: t =>
    match readExpression t with
    | none => none
    | some (tag, t) =>
      match Text.skipSpace t with
      | '}' :: t => finishTag mark "\x7d\x7d" (some (tag, t))
      | _ => none
  | t =>
    match readElse mark t with
    | some r => some r
    | none => finishTag mark "\x7d\x7d" (readExpression t)

/-- The tag at the beginning of a text whose two opening braces have been read, and the text after
it. -/
def readTag (t : Text) : Option (MarkedTag × Text) :=
  match skipComment t with
  | some rest => some (⟨.comment, false, false⟩, rest)
  | none =>
    match readTriple t with
    | some r => some r
    | none =>
      let (mark, t) := readMark t
      readMarked mark (Text.skipSpace t)

end CalcDoc.Template
