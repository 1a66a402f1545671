/-!
# Operators of the block language

The three families of operators and their spelling. The logical words `and`, `or` and `not` are no
operators in this sense: they decide what is evaluated.
-/

namespace CalcDoc.Script

/-- The operators on two numbers, which also make the augmented assignments. -/
inductive ArithOp where
  | add | sub | mul | div | floorDiv | mod | pow
deriving DecidableEq, Repr

/-- The operators that compare two values. -/
inductive CompareOp where
  | eq | ne | lt | le | gt | ge
deriving DecidableEq, Repr

/-- The signs in front of a value. -/
inductive SignOp where
  | minus | plus
deriving DecidableEq, Repr

/-- The spelling of an arithmetic operator. -/
def ArithOp.symbol : ArithOp → String
  | .add => "+"
  | .sub => "-"
  | .mul => "*"
  | .div => "/"
  | .floorDiv => "//"
  | .mod => "%"
  | .pow => "**"

/-- The spelling of a comparison. -/
def CompareOp.symbol : CompareOp → String
  | .eq => "=="
  | .ne => "!="
  | .lt => "<"
  | .le => "<="
  | .gt => ">"
  | .ge => ">="

/-- The spelling of a sign. -/
def SignOp.symbol : SignOp → String
  | .minus => "-"
  | .plus => "+"

/-- The answer of a comparison, given how its operands are ordered. -/
def CompareOp.holds : CompareOp → Ordering → Bool
  | .eq, o => o.isEq
  | .ne, o => o.isNe
  | .lt, o => o.isLT
  | .le, o => o.isLE
  | .gt, o => o.isGT
  | .ge, o => o.isGE

end CalcDoc.Script
