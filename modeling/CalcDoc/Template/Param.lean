import CalcDoc.Template.Path

/-!
# Parameters in tags

- `readParams`: the parameters and named parameters at the beginning of a text, and the text after
  them.
- `readCall`: the name of a helper with at least one parameter.
- `readValue`: a path, or a call in parentheses.
-/

namespace CalcDoc.Template

/-- The parameters of a call. -/
structure Params where
  plain : List Param
  named : Table Param

/-- The parameters with one more in front. -/
def Params.add (p : Param) (ps : Params) : Params :=
  { ps with plain := p :: ps.plain }

/-- The parameters with a named one in front; one behind it with the same name counts instead. -/
def Params.addNamed (x : String) (p : Param) (ps : Params) : Params :=
  if Table.contains ps.named x then ps else { ps with named := Table.insert ps.named x p }

/-- Whether the text begins with a word that is no parameter by itself. It is one if a name goes on
there, or comes after it. -/
def startsKeyword (t : Text) : Bool :=
  ["as", "else"].any fun word =>
    match Text.stripStart? word.toList t with
    | some rest => !continuesName (Text.skipSpace rest)
    | none => false

/-- The name of a named parameter, and the text after the equals sign. -/
def readLabel (t : Text) : Option (String × Text) :=
  match readName t with
  | none => none
  | some (x, t) =>
    match Text.skipSpace t with
    | '=' :: t => some (x, Text.skipSpace t)
    | _ => none

section Levels

variable (param : Text → Option (Param × Text))

/-- A named parameter, and the text after it. -/
def readNamed (t : Text) : Option (String × Param × Text) :=
  match readLabel t with
  | none => none
  | some (x, t) => (param t).map fun (p, t) => (x, p, t)

/-- Any parameters, and the text after them; at most `count`. -/
def readParams : (count : Nat) → Text → Params × Text
  | 0, t => (⟨[], []⟩, t)
  | count + 1, t =>
    let u := Text.skipSpace t
    match readNamed param u with
    | some (x, p, u) =>
      let (ps, rest) := readParams count u
      (ps.addNamed x p, rest)
    | none =>
      match param u with
      | some (p, u) =>
        let (ps, rest) := readParams count u
        (ps.add p, rest)
      | none => (⟨[], []⟩, t)

/-- A name with any parameters, and the text after them. -/
def readLine (t : Text) : Option (Call × Text) :=
  match readName t with
  | none => none
  | some (x, t) =>
    let (ps, rest) := readParams param t.length t
    some (⟨x, ps.plain, ps.named⟩, rest)

/-- A name with at least one parameter, and the text after them. -/
def readCall (t : Text) : Option (Call × Text) :=
  match readLine param t with
  | some (c, rest) => if c.params.isEmpty && c.named.isEmpty then none else some (c, rest)
  | none => none

/-- A call between parentheses, of which the opening one has been read, and the text after it. The
name of a call without parameters may be a path. -/
def readSub (t : Text) : Option (Param × Text) :=
  let t := Text.skipSpace t
  let inside : Option (Call × Text) :=
    match readCall param t with
    | some r => some r
    | none => (readPath t).map fun (p, rest) => (⟨p.raw, [], []⟩, rest)
  match inside with
  | none => none
  | some (c, rest) =>
    match Text.skipSpace rest with
    | ')' :: rest => some (.sub c.helper c.params c.named, rest)
    | _ => none

end Levels

/-- The parameter at the beginning of a text, and the text after it, with at most `depth` calls
inside each other. -/
def readParam : (depth : Nat) → Text → Option (Param × Text)
  | 0, _ => none
  | depth + 1, t =>
    if startsKeyword t then none
    else
      match readLiteral t with
      | some (v, rest) => v.map fun v => (.literal v, rest)
      | none =>
        match readPath t with
        | some (p, rest) => some (.path p, rest)
        | none =>
          match t with
          | '(' :: t => readSub (readParam depth) t
          | _ => none

/-- A call in parentheses or a path, and the text after it. -/
def readValue (t : Text) : Option (Param × Text) :=
  match t with
  | '(' :: u => readSub (readParam t.length) u
  | t => (readPath t).map fun (p, rest) => (.path p, rest)

end CalcDoc.Template
