import CalcDoc.Script.Grammar

/-!
# The grammar of the block language

Which rows of tokens are expressions, statements and programs, said without a reader: one
constructor for each production.

- `Rung`: the levels of the grammar of expressions, from the loosest to the tightest.
- `Derives`: a row of tokens is an expression of a rung, or the arguments of a call.
- `DerivesStatement`, `DerivesProgram`: the same for lexemes and whole statements and programs,
  with the lines that the statements begin on.
-/

namespace CalcDoc.Script

/-- The levels of the grammar of expressions, from the loosest to the tightest. -/
inductive Rung where
  | either | both | negation | comparison | sum | product | signed | power | primary
deriving DecidableEq, Repr

/-- The next tighter rung; its expressions are expressions of this one too. -/
def Rung.tighter? : Rung → Option Rung
  | .either => some .both
  | .both => some .negation
  | .negation => some .comparison
  | .comparison => some .sum
  | .sum => some .product
  | .product => some .signed
  | .signed => some .power
  | .power => some .primary
  | .primary => none

/-- The operator that a sign is written with. -/
def SignOp.written : SignOp → ArithOp
  | .minus => .sub
  | .plus => .add

/-- What a row of tokens can be. -/
inductive Phrase where
  | expr (rung : Rung) (e : Expr)
  /-- One or more arguments of a call. -/
  | arguments (es : List Expr)

/-- The productions of the grammar of expressions. -/
inductive Derives : Phrase → List Token → Prop where
  | or {a b ts us} :
      Derives (.expr .either a) ts → Derives (.expr .both b) us →
      Derives (.expr .either (.or a b)) (ts ++ .or :: us)
  | and {a b ts us} :
      Derives (.expr .both a) ts → Derives (.expr .negation b) us →
      Derives (.expr .both (.and a b)) (ts ++ .and :: us)
  | not {e ts} :
      Derives (.expr .negation e) ts →
      Derives (.expr .negation (.not e)) (.not :: ts)
  /-- The operands are sums, so no comparison is an operand of another. -/
  | compare {op a b ts us} :
      Derives (.expr .sum a) ts → Derives (.expr .sum b) us →
      Derives (.expr .comparison (.compare op a b)) (ts ++ .compare op :: us)
  | sum {op a b ts us} : op = .add ∨ op = .sub →
      Derives (.expr .sum a) ts → Derives (.expr .product b) us →
      Derives (.expr .sum (.arith op a b)) (ts ++ .arith op :: us)
  | product {op a b ts us} : op = .mul ∨ op = .div ∨ op = .floorDiv ∨ op = .mod →
      Derives (.expr .product a) ts → Derives (.expr .signed b) us →
      Derives (.expr .product (.arith op a b)) (ts ++ .arith op :: us)
  | sign {op e ts} :
      Derives (.expr .signed e) ts →
      Derives (.expr .signed (.sign op e)) (.arith op.written :: ts)
  /-- The exponent may have signs and be a power, the base only in parentheses. -/
  | power {a b ts us} :
      Derives (.expr .primary a) ts → Derives (.expr .signed b) us →
      Derives (.expr .power (.arith .pow a b)) (ts ++ .arith .pow :: us)
  | tighter {r s e ts} : r.tighter? = some s →
      Derives (.expr s e) ts → Derives (.expr r e) ts
  | literal {k v} : k.literal? = some v →
      Derives (.expr .primary (.literal v)) [k]
  | name {x} :
      Derives (.expr .primary (.name x)) [.name x]
  | paren {e ts} :
      Derives (.expr .either e) ts →
      Derives (.expr .primary e) (.openParen :: (ts ++ [.closeParen]))
  | callEmpty {f} :
      Derives (.expr .primary (.call f [])) [.name f, .openParen, .closeParen]
  /-- A comma may stand behind the last argument. -/
  | call {f args ts trail} : trail = [] ∨ trail = [.comma] →
      Derives (.arguments args) ts →
      Derives (.expr .primary (.call f args))
        (.name f :: .openParen :: (ts ++ (trail ++ [.closeParen])))
  | lastArgument {e ts} :
      Derives (.expr .either e) ts → Derives (.arguments [e]) ts
  | argument {e es ts us} :
      Derives (.expr .either e) ts → Derives (.arguments es) us →
      Derives (.arguments (e :: es)) (ts ++ .comma :: us)

/-- The tokens of some lexemes. -/
def tokens (ls : List Lexeme) : List Token :=
  ls.map Lexeme.token

@[simp] theorem tokens_nil : tokens [] = [] := rfl

@[simp] theorem tokens_cons (l : Lexeme) (ls : List Lexeme) :
    tokens (l :: ls) = l.token :: tokens ls := rfl

@[simp] theorem tokens_append (ls ms : List Lexeme) :
    tokens (ls ++ ms) = tokens ls ++ tokens ms :=
  List.map_append

/-- The productions of statements. A statement begins on the line of its first lexeme. -/
inductive DerivesStatement : List Lexeme → Statement → Prop where
  | delete {n m x} :
      DerivesStatement [⟨n, .del⟩, ⟨m, .name x⟩] ⟨n, .delete x⟩
  | assign {n m x e ls} :
      Derives (.expr .either e) (tokens ls) →
      DerivesStatement (⟨n, .name x⟩ :: ⟨m, .assign⟩ :: ls) ⟨n, .assign x e⟩
  | augment {n m x op e ls} :
      Derives (.expr .either e) (tokens ls) →
      DerivesStatement (⟨n, .name x⟩ :: ⟨m, .augment op⟩ :: ls) ⟨n, .augment x op e⟩
  | eval {e l ls} :
      Derives (.expr .either e) (tokens (l :: ls)) →
      DerivesStatement (l :: ls) ⟨l.line, .eval e⟩

/-- The productions of programs: statements with one or more separators between neighbours, and any
separators before the first and after the last. -/
inductive DerivesProgram : List Lexeme → Program → Prop where
  | nil :
      DerivesProgram [] []
  | separator {n ls p} :
      DerivesProgram ls p → DerivesProgram (⟨n, .separator⟩ :: ls) p
  | last {ls s} :
      DerivesStatement ls s → DerivesProgram ls [s]
  | statement {ls ms n s p} :
      DerivesStatement ls s → DerivesProgram ms p →
      DerivesProgram (ls ++ ⟨n, .separator⟩ :: ms) (s :: p)

/-! ## What occurs in a derivation -/

theorem Derives.ne_nil {φ : Phrase} {ts : List Token} (h : Derives φ ts) : ts ≠ [] := by
  induction h with
  | tighter _ _ ih => exact ih
  | lastArgument _ ih => exact ih
  | _ => simp

/-- What follows an opening parenthesis shows whether a call has arguments. -/
theorem Derives.head?_ne_closeParen {φ : Phrase} {ts : List Token} (h : Derives φ ts) :
    ts.head? ≠ some .closeParen := by
  -- a phrase that begins with another one begins with its first token
  have left {ts us : List Token} (hne : ts ≠ []) (ih : ts.head? ≠ some .closeParen) :
      (ts ++ us).head? ≠ some .closeParen := by
    cases ts with
    | nil => exact absurd rfl hne
    | cons k ts => exact ih
  induction h with
  | or ha _ ih _ => exact left ha.ne_nil ih
  | and ha _ ih _ => exact left ha.ne_nil ih
  | compare ha _ ih _ => exact left ha.ne_nil ih
  | sum _ ha _ ih _ => exact left ha.ne_nil ih
  | product _ ha _ ih _ => exact left ha.ne_nil ih
  | power ha _ ih _ => exact left ha.ne_nil ih
  | argument ha _ ih _ => exact left ha.ne_nil ih
  | tighter _ _ ih => exact ih
  | lastArgument _ ih => exact ih
  | literal hv => rintro ⟨⟩; cases hv
  | _ => simp

/-- Whether a token may be part of an expression. The others shape statements. -/
def Token.inExpression : Token → Bool
  | .del | .assign | .augment _ | .separator => false
  | _ => true

theorem inExpression_of_literal? {k : Token} {v : Value} (h : k.literal? = some v) :
    k.inExpression := by
  cases k <;> simp_all [Token.literal?, Token.inExpression]

theorem Derives.inExpression {φ : Phrase} {ts : List Token} (h : Derives φ ts) :
    ∀ k ∈ ts, k.inExpression := by
  induction h with
  | literal hv => simpa using inExpression_of_literal? hv
  | call htrail _ ih => rcases htrail with rfl | rfl <;> grind [Token.inExpression]
  | _ => grind [Token.inExpression]

theorem DerivesStatement.ne_nil {ls : List Lexeme} {s : Statement} (h : DerivesStatement ls s) :
    ls ≠ [] := by
  cases h <;> simp

/-- No statement holds a separator, so separators tell where statements end. -/
theorem DerivesStatement.ne_separator {ls : List Lexeme} {s : Statement}
    (h : DerivesStatement ls s) : ∀ l ∈ ls, l.token ≠ .separator := by
  -- the expressions of a statement hold none, and its other tokens are none
  have inside {e : Expr} {ms : List Lexeme} (he : Derives (.expr .either e) (tokens ms)) :
      ∀ l ∈ ms, l.token ≠ .separator := by
    intro l hl hsep
    have := he.inExpression l.token (List.mem_map_of_mem hl)
    simp [hsep, Token.inExpression] at this
  cases h with
  | delete => simp
  | assign he => simpa using inside he
  | augment he => simpa using inside he
  | eval he => exact inside he

end CalcDoc.Script
