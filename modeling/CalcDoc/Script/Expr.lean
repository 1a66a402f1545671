import CalcDoc.Script.Operator
import CalcDoc.Script.Value

/-!
# Expressions and programs

- `Expr`: the expressions of the block language, with `Expr.height`.
- `Statement`, `Program`: what a block does, in order.
-/

namespace CalcDoc.Script

/-- An expression. -/
inductive Expr where
  | literal (v : Value)
  | name (x : String)
  | sign (op : SignOp) (e : Expr)
  | not (e : Expr)
  | arith (op : ArithOp) (left right : Expr)
  | compare (op : CompareOp) (left right : Expr)
  | and (left right : Expr)
  | or (left right : Expr)
  | call (f : String) (args : List Expr)

mutual

/-- The number of expressions on the longest way from the root to a leaf. -/
def Expr.height : Expr → Nat
  | .literal _ | .name _ => 1
  | .sign _ e | .not e => e.height + 1
  | .arith _ l r | .compare _ l r | .and l r | .or l r => max l.height r.height + 1
  | .call _ args => Expr.heights args + 1

/-- The greatest height of some expressions. -/
def Expr.heights : List Expr → Nat
  | [] => 0
  | e :: es => max e.height (Expr.heights es)

end

/-- What a statement does. -/
inductive Action where
  | assign (x : String) (e : Expr)
  /-- The value of `x` is combined with that of `e`. -/
  | augment (x : String) (op : ArithOp) (e : Expr)
  | delete (x : String)
  | eval (e : Expr)

/-- A statement and the line it begins on, counted from the first line of its block. -/
structure Statement where
  line : Nat
  action : Action

/-- A block that has been read. -/
abbrev Program := List Statement

end CalcDoc.Script
