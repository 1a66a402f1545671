import CalcDoc.Number.Layout
import CalcDoc.Script.Operator

/-!
# Tokens

- `Token`: the words of the block language.
- `Lexeme`: a token with the line that is recorded for it.
- `Lexemes`: the lexemes of a source, and the line recorded for its end.
- `Token.label`, `Token.describe`: how messages name a token.
-/

namespace CalcDoc.Script

/-- A word of the block language. The end of the source is no token. -/
inductive Token where
  | int (n : Int64)
  | float (x : Float)
  | str (s : String)
  | name (x : String)
  | bool (b : Bool)
  | absent
  | and
  | or
  | not
  | del
  | arith (op : ArithOp)
  | compare (op : CompareOp)
  | assign
  | augment (op : ArithOp)
  | openParen
  | closeParen
  | comma
  | separator

/-- A token with a line: the line on which the scan for the token began. -/
structure Lexeme where
  line : Nat
  token : Token

/-- The lexemes of a source, and the line on which the scan that met its end began. -/
structure Lexemes where
  items : List Lexeme
  endLine : Nat

/-- The line of the next lexeme, or of the end. -/
def nextLine (endLine : Nat) : List Lexeme → Nat
  | [] => endLine
  | l :: _ => l.line

/-- The next token, if the end is not reached. -/
def nextToken? : List Lexeme → Option Token
  | [] => none
  | l :: _ => some l.token

/-- The name of an arithmetic token. -/
def ArithOp.label : ArithOp → String
  | .add => "Plus"
  | .sub => "Minus"
  | .mul => "Star"
  | .div => "Slash"
  | .floorDiv => "SlashSlash"
  | .mod => "Percent"
  | .pow => "StarStar"

/-- The name of a comparing token. -/
def CompareOp.label : CompareOp → String
  | .eq => "EqEq"
  | .ne => "NotEq"
  | .lt => "Lt"
  | .le => "Le"
  | .gt => "Gt"
  | .ge => "Ge"

/-- Numbers in messages have no needless point and never an exponent. -/
def messageLayout : Layout where
  pointed := 0
  positional := none
  tie := .up
  plus := false

/-- The text of a number in a message. -/
def messageFloat (x : Float) : String :=
  match messageLayout.writeFloat? x with
  | some s => s
  | none => if x.isNaN then "NaN" else if x < 0 then "-inf" else "inf"

/-- The name of a kind of token. -/
def Token.label : Token → String
  | .int _ => "Int"
  | .float _ => "Float"
  | .str _ => "Str"
  | .name _ => "Ident"
  | .bool true => "True"
  | .bool false => "False"
  | .absent => "None"
  | .and => "And"
  | .or => "Or"
  | .not => "Not"
  | .del => "Del"
  | .arith op => op.label
  | .compare op => op.label
  | .assign => "Assign"
  | .augment op => "AugAssign(" ++ op.label ++ ")"
  | .openParen => "LParen"
  | .closeParen => "RParen"
  | .comma => "Comma"
  | .separator => "Separator"

/-- How a message names a token; none is the end of the source. -/
def describe : Option Token → String
  | none => "end of block"
  | some (.int n) => "number " ++ toString n.toInt
  | some (.float x) => "number " ++ messageFloat x
  | some (.str _) => "string"
  | some (.name x) => "name '" ++ x ++ "'"
  | some .separator => "end of statement"
  | some t => t.label

end CalcDoc.Script
