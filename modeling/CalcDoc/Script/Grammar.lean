import CalcDoc.Script.Expr
import CalcDoc.Script.Lexemes

/-!
# From lexemes to statements

The operators from loosest to tightest: `or`, `and`, `not`, one comparison, `+ -`, `* / // %`,
the signs, `**` (which takes its right operand first), calls and atoms.

Reading an expression is nested at most `maxDepth` levels deep. A level is opened by an
expression in parentheses or in a call, by the operand of `not` or of a sign, by an exponent, and
by each operand that continues a chain of equally tight operators. All recursion goes through
such a level, so the readers are built up from the innermost level outwards: a reader refers to
the readers one level further in, if there are any left.

- `Readers`: the readers at one level, with `readers` to build them.
- `readExpr`, `readStatement`: what they read, and the lexemes after it.
-/

namespace CalcDoc.Script

/-- The deepest nesting of expressions. -/
def maxDepth : Nat := 256

/-- What was read, and the lexemes after it. -/
abbrev Reading (α : Type) := Except Error (α × List Lexeme)

/-- The chains of operators that group to the left. -/
inductive Chain where
  | either | both | sum | product
deriving DecidableEq, Repr

/-- How two operands of a chain are joined by a token, if the token belongs to the chain. -/
def Chain.join? : Chain → Token → Option (Expr → Expr → Expr)
  | .either, .or => some .or
  | .both, .and => some .and
  | .sum, .arith .add => some (.arith .add)
  | .sum, .arith .sub => some (.arith .sub)
  | .product, .arith .mul => some (.arith .mul)
  | .product, .arith .div => some (.arith .div)
  | .product, .arith .floorDiv => some (.arith .floorDiv)
  | .product, .arith .mod => some (.arith .mod)
  | _, _ => none

/-- The comparison that a token stands for. -/
def Token.compare? : Token → Option CompareOp
  | .compare op => some op
  | _ => none

/-- The sign that a token stands for. -/
def Token.sign? : Token → Option SignOp
  | .arith .sub => some .minus
  | .arith .add => some .plus
  | _ => none

/-- The value that a token stands for. -/
def Token.literal? : Token → Option Value
  | .int n => some (.int n)
  | .float x => some (.float x)
  | .str s => some (.str s)
  | .bool b => some (.bool b)
  | .absent => some .absent
  | _ => none

/-- What the next token stands for, and the lexemes after it. -/
def next? {α : Type} (meaning : Token → Option α) : List Lexeme → Option (α × List Lexeme)
  | [] => none
  | l :: ts =>
    match meaning l.token with
    | some a => some (a, ts)
    | none => none

/-- The readers at one level of nesting that the level around it calls. -/
structure Readers where
  /-- A whole chain. -/
  chain : Chain → List Lexeme → Reading Expr
  /-- The rest of a chain, after the part that is read. -/
  more : Chain → Expr → List Lexeme → Reading Expr
  /-- An operand of `not`, or of the chain of `and`. -/
  negation : List Lexeme → Reading Expr
  /-- An operand of a sign, an exponent, or an operand of the chain of products. -/
  signed : List Lexeme → Reading Expr

/-- The reader of the operands of a chain. -/
def Readers.operand (r : Readers) : Chain → List Lexeme → Reading Expr
  | .either => r.chain .both
  | .both => r.negation
  | .sum => r.chain .product
  | .product => r.signed

section Levels

variable (endLine : Nat) (inner : Option Readers)

/-- The reading failed at the next lexeme. -/
def failAt {α : Type} (fault : Fault) (ts : List Lexeme) : Reading α :=
  .error (.malformed (nextLine endLine ts) fault)

/-- Goes one level further in, if there is one. -/
def descend {α : Type} (ts : List Lexeme) (read : Readers → Reading α) : Reading α :=
  match inner with
  | some r => read r
  | none => failAt endLine .tooDeep ts

/-- A whole expression, one level further in. -/
def readExpr (ts : List Lexeme) : Reading Expr :=
  descend endLine inner ts fun r => r.chain .either ts

/-- The closing parenthesis after `a`. -/
def readClose {α : Type} (a : α) : List Lexeme → Reading α
  | ⟨_, .closeParen⟩ :: ts => .ok (a, ts)
  | ts => failAt endLine (.expectedCloseParen (nextToken? ts)) ts

/-- A literal, a name or an expression in parentheses. -/
def readAtom : List Lexeme → Reading Expr
  | [] => failAt endLine (.expectedExpression none) []
  | l :: ts =>
    match l.token.literal? with
    | some v => .ok (.literal v, ts)
    | none =>
      match l.token with
      | .name x => .ok (.name x, ts)
      | .openParen =>
        match readExpr endLine inner ts with
        | .ok (e, ts) => readClose endLine e ts
        | .error e => .error e
      | t => failAt endLine (.expectedExpression (some t)) ts

/-- One or more arguments with commas between them, and a comma after the last if it likes; at
most `count` of them. -/
def readArguments : (count : Nat) → List Lexeme → Reading (List Expr)
  | 0, ts => .ok ([], ts)
  | count + 1, ts =>
    match readExpr endLine inner ts with
    | .error e => .error e
    | .ok (e, ⟨_, .comma⟩ :: ⟨line, .closeParen⟩ :: ts) => .ok ([e], ⟨line, .closeParen⟩ :: ts)
    | .ok (e, ⟨_, .comma⟩ :: ts) =>
      match readArguments count ts with
      | .ok (es, ts) => .ok (e :: es, ts)
      | .error e => .error e
    | .ok (e, ts) => .ok ([e], ts)

/-- A call, or an atom. No count of arguments is tried that the lexemes could not hold. -/
def readCall : List Lexeme → Reading Expr
  | ⟨_, .name f⟩ :: ⟨_, .openParen⟩ :: ⟨_, .closeParen⟩ :: ts => .ok (.call f [], ts)
  | ⟨_, .name f⟩ :: ⟨_, .openParen⟩ :: ts =>
    match readArguments endLine inner (ts.length + 1) ts with
    | .ok (args, ts) => readClose endLine (.call f args) ts
    | .error e => .error e
  | ts => readAtom endLine inner ts

/-- A power, whose exponent may have a sign and be a power itself. -/
def readPower (ts : List Lexeme) : Reading Expr :=
  match readCall endLine inner ts with
  | .error e => .error e
  | .ok (base, ⟨_, .arith .pow⟩ :: ts) =>
    descend endLine inner ts fun r =>
      match r.signed ts with
      | .ok (exponent, ts) => .ok (.arith .pow base exponent, ts)
      | .error e => .error e
  | .ok (base, ts) => .ok (base, ts)

/-- A power with any signs in front. -/
def readSigned (ts : List Lexeme) : Reading Expr :=
  match next? Token.sign? ts with
  | some (op, ts) =>
    descend endLine inner ts fun r =>
      match r.signed ts with
      | .ok (e, ts) => .ok (.sign op e, ts)
      | .error e => .error e
  | none => readPower endLine inner ts

/-- The rest of a chain after the part `left`. -/
def readMore (chain : Chain) (left : Expr) (ts : List Lexeme) : Reading Expr :=
  match next? chain.join? ts with
  | none => .ok (left, ts)
  | some (join, ts) =>
    descend endLine inner ts fun r =>
      match r.operand chain ts with
      | .ok (right, ts) => r.more chain (join left right) ts
      | .error e => .error e

/-- A chain of products. -/
def readProduct (ts : List Lexeme) : Reading Expr :=
  match readSigned endLine inner ts with
  | .ok (e, ts) => readMore endLine inner .product e ts
  | .error e => .error e

/-- A chain of sums. -/
def readSum (ts : List Lexeme) : Reading Expr :=
  match readProduct endLine inner ts with
  | .ok (e, ts) => readMore endLine inner .sum e ts
  | .error e => .error e

/-- A sum, or one comparison of two sums. -/
def readComparison (ts : List Lexeme) : Reading Expr :=
  match readSum endLine inner ts with
  | .error e => .error e
  | .ok (left, ts) =>
    match next? Token.compare? ts with
    | none => .ok (left, ts)
    | some (op, ts) =>
      match readSum endLine inner ts with
      | .error e => .error e
      | .ok (right, ts) =>
        match next? Token.compare? ts with
        | none => .ok (.compare op left right, ts)
        | some _ => failAt endLine .chainedComparison ts

/-- A comparison with any `not` in front. -/
def readNegation : List Lexeme → Reading Expr
  | ⟨_, .not⟩ :: ts =>
    descend endLine inner ts fun r =>
      match r.negation ts with
      | .ok (e, ts) => .ok (.not e, ts)
      | .error e => .error e
  | ts => readComparison endLine inner ts

/-- A chain of `and`. -/
def readBoth (ts : List Lexeme) : Reading Expr :=
  match readNegation endLine inner ts with
  | .ok (e, ts) => readMore endLine inner .both e ts
  | .error e => .error e

/-- A chain of `or`. -/
def readEither (ts : List Lexeme) : Reading Expr :=
  match readBoth endLine inner ts with
  | .ok (e, ts) => readMore endLine inner .either e ts
  | .error e => .error e

/-- The readers of the level around `inner`. -/
def Readers.around : Readers where
  chain
    | .either => readEither endLine inner
    | .both => readBoth endLine inner
    | .sum => readSum endLine inner
    | .product => readProduct endLine inner
  more := readMore endLine inner
  negation := readNegation endLine inner
  signed := readSigned endLine inner

end Levels

/-- The readers with `levels` levels of nesting left; none if there is no level left. -/
def readers (endLine : Nat) : (levels : Nat) → Option Readers
  | 0 => none
  | levels + 1 => some (Readers.around endLine (readers endLine levels))

/-- A statement; `inner` are the readers of its expression. -/
def readStatement (endLine : Nat) (inner : Option Readers) (ts : List Lexeme) :
    Reading Statement :=
  let line := nextLine endLine ts
  match ts with
  | ⟨_, .del⟩ :: ⟨_, .name x⟩ :: ts => .ok (⟨line, .delete x⟩, ts)
  | ⟨_, .del⟩ :: ts => failAt endLine (.expectedNameAfterDel (nextToken? ts)) ts.tail
  | ⟨_, .name x⟩ :: ⟨_, .assign⟩ :: ts =>
    match readExpr endLine inner ts with
    | .ok (e, ts) => .ok (⟨line, .assign x e⟩, ts)
    | .error e => .error e
  | ⟨_, .name x⟩ :: ⟨_, .augment op⟩ :: ts =>
    match readExpr endLine inner ts with
    | .ok (e, ts) => .ok (⟨line, .augment x op e⟩, ts)
    | .error e => .error e
  | ts =>
    match readExpr endLine inner ts with
    | .error e => .error e
    | .ok (e, ts) =>
      match nextToken? ts with
      | some .assign | some (.augment _) => failAt endLine .notAssignable ts
      | _ => .ok (⟨line, .eval e⟩, ts)

end CalcDoc.Script
