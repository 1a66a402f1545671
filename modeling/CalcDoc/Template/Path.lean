import CalcDoc.Template.Basic
import CalcDoc.Template.Literal

/-!
# Paths in tags

A path is names with dots or slashes between them. In front may stand `this` or a dot for the
current context, `@root` for the data as a whole, `@` for a variable of a loop, and `..` once for
each context to leave. A name in brackets may hold any characters.

- `readName`: the plain name at the beginning of a text, and the text after it.
- `readPath`: the path at the beginning of a text, and the text after it.
-/

namespace CalcDoc.Template

/-- The plain name at the beginning of a text, and the text after it. -/
def readName (t : Text) : Option (String × Text) :=
  match t.takeWhile isNameChar with
  | [] => none
  | x => some (String.ofList x, t.dropWhile isNameChar)

/-- The text after a dot or a slash. -/
def skipSeparator : Text → Option Text
  | '.' :: t => some t
  | '/' :: t => some t
  | _ => none

/-- The text after a word and a dot or slash behind it, if the text begins so. -/
def skipStep (word : String) (t : Text) : Option Text :=
  (Text.stripStart? word.toList t).bind skipSeparator

/-- The text after what names the current context, if the text begins so, and else the text
itself. -/
def skipCurrent (t : Text) : Text :=
  match skipStep "this" t with
  | some rest => rest
  | none => (Text.stripStart? "./".toList t).getD t

/-- The count of contexts to leave, and the text after them. At most `most` are counted. -/
def readUps : (most : Nat) → Text → Nat × Text
  | 0, t => (0, t)
  | most + 1, t =>
    match skipStep ".." t with
    | some t =>
      let (levels, t) := readUps most t
      (levels + 1, t)
    | none => (0, t)

/-- A name, plain or in brackets, and the text after it. -/
def readPart : Text → Option (String × Text)
  | '[' :: t =>
    match t.dropWhile (· != ']') with
    | _ :: rest => some (String.ofList (t.takeWhile (· != ']')), rest)
    | [] => none
  | t => readName t

/-- Any names of which each stands behind a dot or slash, and the text after them; at most
`count`. -/
def readParts : (count : Nat) → Text → List String × Text
  | 0, t => ([], t)
  | count + 1, t =>
    match (skipSeparator t).bind readPart with
    | some (x, t) =>
      let (xs, t) := readParts count t
      (x :: xs, t)
    | none => ([], t)

/-- What a path with the given parts starts from. -/
def Target.ofParts (root loop : Bool) (levels : Nat) (names : List String) : Target :=
  if root then .root names
  else if loop then
    match names with
    | x :: _ => .loopVariable levels x
    | [] => .context 0 []
  else .context levels names

/-- The path at the beginning of a text, and the text after it. The name `this` leads nowhere. -/
def readPath (t : Text) : Option (Path × Text) :=
  let start := skipCurrent t
  let afterRoot := skipStep "@root" start
  let u := afterRoot.getD start
  let afterSign := Text.stripStart? ['@'] u
  let (levels, u) := readUps u.length (afterSign.getD u)
  match readPart u with
  | none => none
  | some (x, u) =>
    let (xs, rest) := readParts u.length u
    let names := (x :: xs).filter (· != "this")
    some (⟨String.ofList (Text.before t rest),
      Target.ofParts afterRoot.isSome afterSign.isSome levels names⟩, rest)

end CalcDoc.Template
