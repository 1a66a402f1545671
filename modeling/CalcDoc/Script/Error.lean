import CalcDoc.Script.Token
import CalcDoc.Script.Value

/-!
# Errors of the block language

Errors are causes; their wording is in one function each.

- `Fault`: what is wrong with a source that is no program.
- `TypeFault`: what is wrong with the kinds of some operands.
- `Error`: why a block fails, with `Error.message`.
-/

namespace CalcDoc.Script

/-- What is wrong with a source that is no program. A `found` token that is none stands for the
end of the source. -/
inductive Fault where
  | unexpectedBang
  | unexpectedCharacter (c : Char)
  | unterminatedString
  | unknownEscape (c : Char)
  | invalidNumber (text : String)
  | integerOutOfRange (text : String)
  | expectedCloseParen (found : Option Token)
  | expectedEndOfStatement (found : Option Token)
  | expectedNameAfterDel (found : Option Token)
  | expectedExpression (found : Option Token)
  | notAssignable
  | chainedComparison
  | tooDeep

/-- The built-in functions. -/
inductive Builtin where
  | abs | min | max | round | int | float | str | len
deriving DecidableEq, Repr

/-- The name that calls a built-in function. -/
def Builtin.name : Builtin → String
  | .abs => "abs"
  | .min => "min"
  | .max => "max"
  | .round => "round"
  | .int => "int"
  | .float => "float"
  | .str => "str"
  | .len => "len"

/-- What is wrong with the kinds of some operands. -/
inductive TypeFault where
  | orderNaN
  | compare (left right : Kind)
  | sign (op : SignOp) (operand : Kind)
  | operands (op : ArithOp) (left right : Kind)
  | notNumber (function : Builtin) (got : Kind)
  | roundDigits
  /-- A string that does not spell a value of the kind. -/
  | convertText (text : String) (target : Kind)
  | convertKind (got target : Kind)
  | noLength (got : Kind)

/-- What left the range of the integers, or the length that a string may have. -/
inductive Overflowing where
  | arith (op : ArithOp)
  | negation
  | builtin (function : Builtin)

/-- The numbers of arguments that functions take. -/
inductive Arity where
  | one | oneOrTwo | atLeastOne

/-- Why a block fails. Reading and running a block fail with the same type, because a block is
read just before it runs. -/
inductive Error where
  /-- The source is no program; the line counts from the first line of the block. -/
  | malformed (line : Nat) (fault : Fault)
  | undefinedName (name : String)
  | unknownFunction (name : String)
  | type (fault : TypeFault)
  | divisionByZero
  | overflow (what : Overflowing)
  | arity (function : Builtin) (expected : Arity) (got : Nat)

/-! ## Wording -/

/-- The text of a fault. -/
def Fault.message : Fault → String
  | .unexpectedBang => "unexpected '!'"
  | .unexpectedCharacter c => "unexpected character '" ++ c.toString ++ "'"
  | .unterminatedString => "unterminated string"
  | .unknownEscape c => "unknown escape '\\" ++ c.toString ++ "'"
  | .invalidNumber t => "invalid number '" ++ t ++ "'"
  | .integerOutOfRange t => "integer literal '" ++ t ++ "' out of range"
  | .expectedCloseParen found => "expected ')', found " ++ describe found
  | .expectedEndOfStatement found => "expected end of statement, found " ++ describe found
  | .expectedNameAfterDel found => "expected a name after 'del', found " ++ describe found
  | .expectedExpression found => "expected an expression, found " ++ describe found
  | .notAssignable => "can only assign to a plain name"
  | .chainedComparison => "chained comparisons are not supported"
  | .tooDeep => "expression nested too deeply"

/-- The text of a type fault. -/
def TypeFault.message : TypeFault → String
  | .orderNaN => "cannot order NaN"
  | .compare l r => "cannot compare " ++ l.name ++ " with " ++ r.name
  | .sign op k => "bad operand type for unary " ++ op.symbol ++ ": " ++ k.name
  | .operands op l r =>
    "unsupported operand types for " ++ op.symbol ++ ": " ++ l.name ++ " and " ++ r.name
  | .notNumber f k => f.name ++ "() expects a number, got " ++ k.name
  | .roundDigits => "round() digits must be an integer"
  | .convertText t k => "cannot convert '" ++ t ++ "' to " ++ k.name
  | .convertKind k target => "cannot convert " ++ k.name ++ " to " ++ target.name
  | .noLength k => k.name ++ " has no length"

/-- The name of what overflowed. -/
def Overflowing.name : Overflowing → String
  | .arith op => op.symbol
  | .negation => "negation"
  | .builtin f => f.name

/-- The numbers of arguments in words. -/
def Arity.text : Arity → String
  | .one => "1"
  | .oneOrTwo => "1 or 2"
  | .atLeastOne => "at least 1"

/-- The text of an error. -/
def Error.message : Error → String
  | .malformed line fault => "syntax error on line " ++ toString line ++ ": " ++ fault.message
  | .undefinedName x => "name '" ++ x ++ "' is not defined"
  | .unknownFunction x => "unknown function '" ++ x ++ "'"
  | .type fault => "type error: " ++ fault.message
  | .divisionByZero => "division by zero"
  | .overflow what => "integer overflow in " ++ what.name
  | .arity f expected got =>
    f.name ++ "() takes " ++ expected.text ++ " argument(s), got " ++ toString got

end CalcDoc.Script
