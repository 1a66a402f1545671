import CalcDoc.Proofs.Evaluation.Results
import CalcDoc.Proofs.Grammar.Steps
import CalcDoc.Proofs.Grammar.Tallest
import CalcDoc.Proofs.Lexemes.Written

/-!
# Expressions in parentheses

Every expression can be written down and is read back: with each operation in its own parentheses
no operator meets another one.

- `Expr.parenthesized`: the tokens of an expression.
- `readEither_join`, `readEither_power`, `readEither_compare`: one operation between two calls or
  atoms.
- `readAt_of_height`: an expression is read from its tokens. Two levels of nesting are enough for
  each step of its height, one for the parentheses and one for the operand.
- `ofText_parenthesized`: an assignment of an expression is read back.
-/

namespace CalcDoc.Script

/-! ## Spelling -/

/-- The token of a literal. -/
def Value.token : Value → Token
  | .absent => .absent
  | .bool b => .bool b
  | .int n => .int n
  | .float x => .float x
  | .str s => .str s

/-- Some tokens in parentheses. -/
def inParens (ks : List Token) : List Token :=
  .openParen :: (ks ++ [.closeParen])

mutual

/-- The tokens of an expression, with parentheses around every operation but calls. -/
def Expr.parenthesized : Expr → List Token
  | .literal v => [v.token]
  | .name x => [.name x]
  | .sign op e => inParens (.arith op.written :: e.parenthesized)
  | .not e => inParens (.not :: e.parenthesized)
  | .arith op l r => inParens (l.parenthesized ++ .arith op :: r.parenthesized)
  | .compare op l r => inParens (l.parenthesized ++ .compare op :: r.parenthesized)
  | .and l r => inParens (l.parenthesized ++ .and :: r.parenthesized)
  | .or l r => inParens (l.parenthesized ++ .or :: r.parenthesized)
  | .call f args => .name f :: inParens (Expr.separated args)

/-- The tokens of some expressions with commas between them. -/
def Expr.separated : List Expr → List Token
  | [] => []
  | [e] => e.parenthesized
  | e :: e' :: es => e.parenthesized ++ .comma :: Expr.separated (e' :: es)

end

mutual

/-- The names and the names of functions in an expression. -/
def Expr.identifiers : Expr → List String
  | .literal _ => []
  | .name x => [x]
  | .sign _ e | .not e => e.identifiers
  | .arith _ l r | .compare _ l r | .and l r | .or l r => l.identifiers ++ r.identifiers
  | .call f args => f :: Expr.identifiersOf args

/-- The names and the names of functions in some expressions. -/
def Expr.identifiersOf : List Expr → List String
  | [] => []
  | e :: es => e.identifiers ++ Expr.identifiersOf es

end

/-- Whether a value can be written as a literal: no double can, and no number with a sign. -/
def Value.isWritable (v : Value) : Bool :=
  v.token.isWritable

theorem literal?_token (v : Value) : v.token.literal? = some v := by
  cases v <;> rfl

theorem writable_inParens {ks : List Token} (h : ∀ k ∈ ks, k.isWritable) :
    ∀ k ∈ inParens ks, k.isWritable := by
  intro k hk
  rcases List.mem_cons.1 hk with rfl | hk
  · rfl
  · rcases List.mem_append.1 hk with hk | hk
    · exact h k hk
    · obtain rfl := List.mem_singleton.1 hk
      rfl

theorem writable_between {ks ms : List Token} {op : Token} (hks : ∀ k ∈ ks, k.isWritable)
    (hop : op.isWritable) (hms : ∀ k ∈ ms, k.isWritable) : ∀ k ∈ ks ++ op :: ms, k.isWritable := by
  intro k hk
  rcases List.mem_append.1 hk with hk | hk
  · exact hks k hk
  · rcases List.mem_cons.1 hk with rfl | hk
    · exact hop
    · exact hms k hk

/-- An operation can be written if its operands can. -/
theorem writable_operation {l r : Expr} {op : Token} (hop : op.isWritable)
    (hl : (∀ v ∈ l.literals, v.isWritable) → (∀ x ∈ l.identifiers, isName x) →
      ∀ k ∈ l.parenthesized, k.isWritable)
    (hr : (∀ v ∈ r.literals, v.isWritable) → (∀ x ∈ r.identifiers, isName x) →
      ∀ k ∈ r.parenthesized, k.isWritable)
    (hv : ∀ v ∈ l.literals ++ r.literals, v.isWritable)
    (hx : ∀ x ∈ l.identifiers ++ r.identifiers, isName x) :
    ∀ k ∈ inParens (l.parenthesized ++ op :: r.parenthesized), k.isWritable := by
  obtain ⟨hvl, hvr⟩ := List.forall_mem_append.1 hv
  obtain ⟨hxl, hxr⟩ := List.forall_mem_append.1 hx
  exact writable_inParens (writable_between (hl hvl hxl) hop (hr hvr hxr))

mutual

/-- An expression is written with tokens that can be written, if its literals and names can. -/
theorem writable_parenthesized : ∀ e : Expr, (∀ v ∈ e.literals, v.isWritable) →
    (∀ x ∈ e.identifiers, isName x) → ∀ k ∈ e.parenthesized, k.isWritable
  | .literal v, hv, _ => by
    intro k hk
    obtain rfl := List.mem_singleton.1 hk
    exact hv v (List.mem_singleton_self v)
  | .name x, _, hx => by
    intro k hk
    obtain rfl := List.mem_singleton.1 hk
    exact hx x (List.mem_singleton_self x)
  | .sign _ e, hv, hx =>
    writable_inParens (List.forall_mem_cons.2 ⟨rfl, writable_parenthesized e hv hx⟩)
  | .not e, hv, hx =>
    writable_inParens (List.forall_mem_cons.2 ⟨rfl, writable_parenthesized e hv hx⟩)
  | .arith _ l r, hv, hx =>
    writable_operation rfl (writable_parenthesized l) (writable_parenthesized r) hv hx
  | .compare _ l r, hv, hx =>
    writable_operation rfl (writable_parenthesized l) (writable_parenthesized r) hv hx
  | .and l r, hv, hx =>
    writable_operation rfl (writable_parenthesized l) (writable_parenthesized r) hv hx
  | .or l r, hv, hx =>
    writable_operation rfl (writable_parenthesized l) (writable_parenthesized r) hv hx
  | .call f args, hv, hx => by
    obtain ⟨hf, hargs⟩ := List.forall_mem_cons.1 hx
    exact List.forall_mem_cons.2 ⟨hf, writable_inParens (writable_separated args hv hargs)⟩

theorem writable_separated : ∀ es : List Expr, (∀ v ∈ Expr.literalsOf es, v.isWritable) →
    (∀ x ∈ Expr.identifiersOf es, isName x) → ∀ k ∈ Expr.separated es, k.isWritable
  | [], _, _ => nofun
  | [e], hv, hx =>
    writable_parenthesized e (List.forall_mem_append.1 hv).1 (List.forall_mem_append.1 hx).1
  | e :: e' :: es, hv, hx => by
    obtain ⟨hve, hves⟩ := List.forall_mem_append.1 hv
    obtain ⟨hxe, hxes⟩ := List.forall_mem_append.1 hx
    exact writable_between (writable_parenthesized e hve hxe) rfl
      (writable_separated (e' :: es) hves hxes)

end

/-! ## Reading -/

/-- The lexemes of some tokens on the first line. -/
def firstLine (ks : List Token) : List Lexeme :=
  ks.map (Lexeme.mk 1)

@[simp] theorem firstLine_nil : firstLine [] = [] := rfl

@[simp] theorem firstLine_cons (k : Token) (ks : List Token) :
    firstLine (k :: ks) = ⟨1, k⟩ :: firstLine ks := rfl

@[simp] theorem firstLine_append (ks ms : List Token) :
    firstLine (ks ++ ms) = firstLine ks ++ firstLine ms :=
  List.map_append

section Operations

variable {endLine levels : Nat} {l : Lexeme} {ts mid rest : List Lexeme} {a b e : Expr}

/-- What a closing parenthesis follows is read by the readers of all rungs. -/
theorem readEither_of_read {r : Rung} {n : Nat} {inner : Option Readers}
    (h : r.read endLine inner ts = .ok (e, ⟨n, .closeParen⟩ :: rest)) :
    readEither endLine inner ts = .ok (e, ⟨n, .closeParen⟩ :: rest) :=
  read_looser (r := .either) h (Nat.zero_le _) (ends_of_rung? rfl)

/-- Two calls or atoms with a token of a chain between them. -/
theorem readEither_join {c : Chain} {n : Nat} {join : Expr → Expr → Expr}
    (hl : c.join? l.token = some join)
    (ha : readCall endLine (readers endLine (levels + 1)) ts = .ok (a, l :: mid))
    (hb : readCall endLine (readers endLine levels) mid = .ok (b, ⟨n, .closeParen⟩ :: rest)) :
    readEither endLine (readers endLine (levels + 1)) ts =
      .ok (join a b, ⟨n, .closeParen⟩ :: rest) := by
  have hleft : Ends c.operandRung (l :: mid) := by
    refine ends_cons fun s hs => ?_
    obtain rfl := Option.some.inj ((rung?_of_join? hl).symm.trans hs)
    cases c <;> decide
  have left : c.operandRung.read endLine (readers endLine (levels + 1)) ts = .ok (a, l :: mid) :=
    read_looser (s := .primary) ha (by cases c <;> decide) hleft
  have right : c.operandRung.read endLine (readers endLine levels) mid =
      .ok (b, ⟨n, .closeParen⟩ :: rest) :=
    read_looser (s := .primary) hb (by cases c <;> decide) (ends_of_rung? rfl)
  refine readEither_of_read (r := c.rung) ?_
  rw [read_chain c left, readMore_join hl right, readMore_of_ends c _ (ends_of_rung? rfl)]

/-- Two calls or atoms with a power sign between them. -/
theorem readEither_power {m n : Nat}
    (ha : readCall endLine (readers endLine (levels + 1)) ts = .ok (a, ⟨m, .arith .pow⟩ :: mid))
    (hb : readCall endLine (readers endLine levels) mid = .ok (b, ⟨n, .closeParen⟩ :: rest)) :
    readEither endLine (readers endLine (levels + 1)) ts =
      .ok (.arith .pow a b, ⟨n, .closeParen⟩ :: rest) := by
  have exponent : readSigned endLine (readers endLine levels) mid = .ok (b, _) :=
    read_looser (r := .signed) (s := .primary) hb (by decide) (ends_of_rung? rfl)
  exact readEither_of_read (r := .power) (readPower_of_pow ha exponent)

/-- Two calls or atoms with an operator between them. -/
theorem readEither_arith {op : ArithOp} {m n : Nat}
    (ha : readCall endLine (readers endLine (levels + 1)) ts = .ok (a, ⟨m, .arith op⟩ :: mid))
    (hb : readCall endLine (readers endLine levels) mid = .ok (b, ⟨n, .closeParen⟩ :: rest)) :
    readEither endLine (readers endLine (levels + 1)) ts =
      .ok (.arith op a b, ⟨n, .closeParen⟩ :: rest) := by
  cases op with
  | add => exact readEither_join (c := .sum) rfl ha hb
  | sub => exact readEither_join (c := .sum) rfl ha hb
  | mul => exact readEither_join (c := .product) rfl ha hb
  | div => exact readEither_join (c := .product) rfl ha hb
  | floorDiv => exact readEither_join (c := .product) rfl ha hb
  | mod => exact readEither_join (c := .product) rfl ha hb
  | pow => exact readEither_power ha hb

/-- Two calls or atoms with a comparison between them. -/
theorem readEither_compare {inner : Option Readers} {op : CompareOp} {m n : Nat}
    (ha : readCall endLine inner ts = .ok (a, ⟨m, .compare op⟩ :: mid))
    (hb : readCall endLine inner mid = .ok (b, ⟨n, .closeParen⟩ :: rest)) :
    readEither endLine inner ts = .ok (.compare op a b, ⟨n, .closeParen⟩ :: rest) := by
  have hleft : Ends .sum (⟨m, .compare op⟩ :: mid) :=
    ends_cons fun s hs => by cases hs; decide
  have left : readSum endLine inner ts = .ok (a, _) :=
    read_looser (r := .sum) (s := .primary) ha (by decide) hleft
  have right : readSum endLine inner mid = .ok (b, _) :=
    read_looser (r := .sum) (s := .primary) hb (by decide) (ends_of_rung? rfl)
  exact readEither_of_read (r := .comparison)
    (readComparison_of_readSums left rfl right (ends_of_rung? rfl))

/-- A sign in front of a call or an atom. -/
theorem readEither_sign {op : SignOp} {m n : Nat}
    (h : readCall endLine (readers endLine levels) ts = .ok (e, ⟨n, .closeParen⟩ :: rest)) :
    readEither endLine (readers endLine (levels + 1)) (⟨m, .arith op.written⟩ :: ts) =
      .ok (.sign op e, ⟨n, .closeParen⟩ :: rest) := by
  have operand : readSigned endLine (readers endLine levels) ts = .ok (e, _) :=
    read_looser (r := .signed) (s := .primary) h (by decide) (ends_of_rung? rfl)
  exact readEither_of_read (r := .signed) (readSigned_sign operand)

/-- The word `not` in front of a call or an atom. -/
theorem readEither_not {m n : Nat}
    (h : readCall endLine (readers endLine levels) ts = .ok (e, ⟨n, .closeParen⟩ :: rest)) :
    readEither endLine (readers endLine (levels + 1)) (⟨m, .not⟩ :: ts) =
      .ok (.not e, ⟨n, .closeParen⟩ :: rest) := by
  have operand : readNegation endLine (readers endLine levels) ts = .ok (e, _) :=
    read_looser (r := .negation) (s := .primary) h (by decide) (ends_of_rung? rfl)
  exact readEither_of_read (r := .negation) (readNegation_not (n := m) operand)

/-- Tokens in parentheses are read one level further in. -/
theorem readCall_inParens {ks : List Token}
    (h : readEither endLine (readers endLine levels) (firstLine ks ++ ⟨1, .closeParen⟩ :: rest) =
      .ok (e, ⟨1, .closeParen⟩ :: rest)) :
    readCall endLine (readers endLine (levels + 1)) (firstLine (inParens ks) ++ rest) =
      .ok (e, rest) := by
  have hinside : firstLine (inParens ks) ++ rest =
      ⟨1, .openParen⟩ :: (firstLine ks ++ ⟨1, .closeParen⟩ :: rest) := by
    simp [inParens]
  rw [hinside]
  exact readCall_paren h

end Operations

/-- An expression is read from its tokens with so many levels, whatever follows but an opening
parenthesis. -/
def ReadAt (endLine levels : Nat) (e : Expr) : Prop :=
  ∀ rest, Ends .primary rest →
    readCall endLine (readers endLine levels) (firstLine e.parenthesized ++ rest) = .ok (e, rest)

/-- The arguments of a call, if there are any, are read from their tokens with so many levels. -/
def ArgumentsReadAt (endLine levels : Nat) (es : List Expr) : Prop :=
  ∀ count rest, es ≠ [] → es.length ≤ count →
    readArguments endLine (readers endLine levels) count
      (firstLine (Expr.separated es) ++ ⟨1, .closeParen⟩ :: rest) =
        .ok (es, ⟨1, .closeParen⟩ :: rest)

/-- Only an opening parenthesis goes on with a call or an atom. -/
theorem ends_primary {k : Token} (hk : k.rung? ≠ some .primary) (n : Nat) (rest : List Lexeme) :
    Ends .primary (⟨n, k⟩ :: rest) := by
  refine ends_cons fun s hs => ?_
  have hne : s ≠ .primary := by
    rintro rfl
    exact hk hs
  cases s <;> first | decide | exact absurd rfl hne

/-- No expression begins with a closing parenthesis. -/
theorem exists_parenthesized (e : Expr) :
    ∃ k ks, e.parenthesized = k :: ks ∧ k ≠ .closeParen := by
  cases e with
  | literal v => cases v <;> exact ⟨_, _, rfl, nofun⟩
  | _ => exact ⟨_, _, rfl, nofun⟩

theorem nextToken?_separated (e : Expr) (es : List Expr) (rest : List Lexeme) :
    nextToken? (firstLine (Expr.separated (e :: es)) ++ rest) ≠ some .closeParen := by
  obtain ⟨k, ks, he, hk⟩ := exists_parenthesized e
  cases es with
  | nil => simpa [Expr.separated, he, nextToken?] using hk
  | cons e' es => simpa [Expr.separated, he, nextToken?] using hk

/-- There are no more arguments than tokens of them and one. -/
theorem length_le_separated : ∀ es : List Expr, es.length ≤ (Expr.separated es).length + 1
  | [] => Nat.zero_le _
  | [_] => Nat.le_add_left 1 _
  | e :: e' :: es => by
    have := length_le_separated (e' :: es)
    simp only [Expr.separated, List.length_append, List.length_cons] at this ⊢
    omega

section Levels

variable {endLine levels : Nat} {e l r : Expr} {es : List Expr}

/-- An operation is read if its left operand is read at the level inside the parentheses, and its
right operand at the level where the operation has it read. -/
theorem readAt_operation {n : Nat} {k : Token} {join : Expr → Expr → Expr}
    (hk : k.rung? ≠ some .primary)
    (htokens : (join l r).parenthesized = inParens (l.parenthesized ++ k :: r.parenthesized))
    (hjoin : ∀ ts mid rest,
      readCall endLine (readers endLine levels) ts = .ok (l, ⟨1, k⟩ :: mid) →
      readCall endLine (readers endLine n) mid = .ok (r, ⟨1, .closeParen⟩ :: rest) →
      readEither endLine (readers endLine levels) ts =
        .ok (join l r, ⟨1, .closeParen⟩ :: rest))
    (hl : ReadAt endLine levels l) (hr : ReadAt endLine n r) :
    ReadAt endLine (levels + 1) (join l r) := by
  intro rest _
  rw [htokens]
  refine readCall_inParens (hjoin _ (firstLine r.parenthesized ++ ⟨1, .closeParen⟩ :: rest) _ ?_ ?_)
  · rw [firstLine_append, firstLine_cons, List.append_assoc, List.cons_append]
    exact hl _ (ends_primary hk 1 _)
  · exact hr _ (ends_of_rung? rfl)

theorem readAt_sign {op : SignOp} (h : ReadAt endLine levels e) :
    ReadAt endLine (levels + 2) (.sign op e) :=
  fun _ _ => readCall_inParens (readEither_sign (h _ (ends_of_rung? rfl)))

theorem readAt_not (h : ReadAt endLine levels e) : ReadAt endLine (levels + 2) (.not e) :=
  fun _ _ => readCall_inParens (readEither_not (h _ (ends_of_rung? rfl)))

theorem ReadAt.readExpr (h : ReadAt endLine levels e) {rest : List Lexeme}
    (hend : Ends .either rest) :
    readExpr endLine (readers endLine (levels + 1)) (firstLine e.parenthesized ++ rest) =
      .ok (e, rest) := by
  have hread : Rung.primary.read endLine (readers endLine levels) _ = _ :=
    h rest (hend.mono (Nat.zero_le _))
  exact read_looser (r := .either) hread (Nat.zero_le _) hend

theorem argumentsReadAt_last (h : ReadAt endLine levels e) :
    ArgumentsReadAt endLine (levels + 1) [e] := by
  intro count rest _ hcount
  obtain ⟨count, rfl⟩ : ∃ c, count = c + 1 := ⟨count - 1, by simp at hcount; omega⟩
  exact readArguments_last (h.readExpr (ends_of_rung? rfl)) nofun

/-- Another argument follows a comma. -/
theorem argumentsReadAt_cons (h : ReadAt endLine levels e)
    (hes : ArgumentsReadAt endLine (levels + 1) (l :: es)) :
    ArgumentsReadAt endLine (levels + 1) (e :: l :: es) := by
  intro count rest _ hcount
  obtain ⟨count, rfl⟩ : ∃ c, count = c + 1 := ⟨count - 1, by simp at hcount; omega⟩
  have hrest := hes count rest (List.cons_ne_nil l es) (Nat.le_of_succ_le_succ hcount)
  have hcomma : Ends .either (⟨1, .comma⟩ ::
      (firstLine (Expr.separated (l :: es)) ++ ⟨1, .closeParen⟩ :: rest)) := ends_of_rung? rfl
  rw [Expr.separated, firstLine_append, firstLine_cons, List.append_assoc, List.cons_append,
    readArguments_comma (h.readExpr hcomma) (nextToken?_separated l es _), hrest]

/-- A call is read if its arguments are. -/
theorem readAt_call {f : String} (h : ArgumentsReadAt endLine levels es) :
    ReadAt endLine levels (.call f es) := by
  intro rest _
  have hinside : firstLine (Expr.call f es).parenthesized ++ rest =
      ⟨1, .name f⟩ :: ⟨1, .openParen⟩ ::
        (firstLine (Expr.separated es) ++ ⟨1, .closeParen⟩ :: rest) := by
    simp [Expr.parenthesized, inParens]
  rw [hinside]
  cases es with
  | nil => rfl
  | cons e es =>
    refine readCall_of_readArguments (nextToken?_separated e es _)
      (h _ rest (List.cons_ne_nil e es) ?_)
    have := length_le_separated (e :: es)
    simp only [firstLine, List.length_append, List.length_map]
    omega

end Levels

/-- The levels inside the parentheses of an operation are enough for its operands. -/
theorem exists_levels {l r : Expr} {levels : Nat}
    (h : 2 * (max l.height r.height + 1) ≤ levels + 2) :
    ∃ k, levels = k + 2 ∧ 2 * l.height ≤ k + 1 + 2 ∧ 2 * r.height ≤ k + 2 := by
  have := height_pos l
  exact ⟨levels - 2, by omega, by omega, by omega⟩

mutual

/-- Two levels for each step of the height are enough to read an expression. -/
theorem readAt_of_height {endLine : Nat} : ∀ (e : Expr) {levels : Nat},
    2 * e.height ≤ levels + 2 → ReadAt endLine levels e
  | .literal v, _, _ => fun _ _ => readCall_literal (literal?_token v)
  | .name _, _, _ => fun _ hend => readCall_name hend
  | .sign op e, levels, h => by
    obtain ⟨k, rfl, -, he⟩ := exists_levels (l := e) (r := e) (by rwa [Nat.max_self])
    exact readAt_sign (readAt_of_height e he)
  | .not e, levels, h => by
    obtain ⟨k, rfl, -, he⟩ := exists_levels (l := e) (r := e) (by rwa [Nat.max_self])
    exact readAt_not (readAt_of_height e he)
  | .arith op l r, levels, h => by
    obtain ⟨k, rfl, hl, hr⟩ := exists_levels h
    exact readAt_operation (by cases op <;> decide) rfl (fun _ _ _ => readEither_arith)
      (readAt_of_height l hl) (readAt_of_height r hr)
  | .compare op l r, levels, h => by
    obtain ⟨k, rfl, hl, hr⟩ := exists_levels h
    -- both operands of a comparison are read at the level inside the parentheses
    exact readAt_operation (by cases op <;> decide) rfl (fun _ _ _ => readEither_compare)
      (readAt_of_height l hl) (readAt_of_height r (Nat.le_succ_of_le hr))
  | .and l r, levels, h => by
    obtain ⟨k, rfl, hl, hr⟩ := exists_levels h
    exact readAt_operation (by decide) rfl (fun _ _ _ => readEither_join (c := .both) rfl)
      (readAt_of_height l hl) (readAt_of_height r hr)
  | .or l r, levels, h => by
    obtain ⟨k, rfl, hl, hr⟩ := exists_levels h
    exact readAt_operation (by decide) rfl (fun _ _ _ => readEither_join (c := .either) rfl)
      (readAt_of_height l hl) (readAt_of_height r hr)
  | .call f args, levels, h =>
    readAt_call (argumentsReadAt_of_heights args (by simp only [Expr.height] at h; omega))

theorem argumentsReadAt_of_heights {endLine : Nat} : ∀ (es : List Expr) {levels : Nat},
    2 * Expr.heights es ≤ levels → ArgumentsReadAt endLine levels es
  | [], _, _ => fun _ _ hne => absurd rfl hne
  | [e], levels, h => by
    rw [Expr.heights, Expr.heights, Nat.max_zero] at h
    have := height_pos e
    obtain ⟨k, rfl⟩ : ∃ k, levels = k + 1 := ⟨levels - 1, by omega⟩
    exact argumentsReadAt_last (readAt_of_height e (by omega))
  | e :: e' :: es, levels, h => by
    rw [Expr.heights] at h
    have := height_pos e
    obtain ⟨k, rfl⟩ : ∃ k, levels = k + 1 := ⟨levels - 1, by omega⟩
    exact argumentsReadAt_cons (readAt_of_height e (by omega))
      (argumentsReadAt_of_heights (e' :: es) (by omega))

end

/-! ## Sources -/

/-- The source of an assignment, with blanks between its words and strings in the given quotes. -/
def assignmentSource (q : Quote) (x : String) (e : Expr) : Text :=
  Text.join ' ' ((.name x :: .assign :: e.parenthesized).map (Token.written q))

/-- An assignment of an expression is read back, if its names are names, its literals are neither
doubles nor negative, and its height is at most half the levels of nesting. -/
theorem ofText_parenthesized {q : Quote} {x : String} {e : Expr} (hx : isName x)
    (hnames : ∀ y ∈ e.identifiers, isName y) (hliterals : ∀ v ∈ e.literals, v.isWritable)
    (hheight : 2 * e.height ≤ maxDepth) :
    Program.ofText (assignmentSource q x e) = .ok [⟨1, .assign x e⟩] := by
  have hwritable : ∀ k ∈ .name x :: .assign :: e.parenthesized, k.isWritable :=
    List.forall_mem_cons.2 ⟨hx, List.forall_mem_cons.2
      ⟨rfl, writable_parenthesized e hliterals hnames⟩⟩
  obtain ⟨ws, hwords, htokens⟩ := exists_spelled q hwritable
  have hlexemes : (ws.map fun w => (⟨1, w.token⟩ : Lexeme)) =
      ⟨1, .name x⟩ :: ⟨1, .assign⟩ :: firstLine e.parenthesized := by
    have hmap := congrArg (List.map (Lexeme.mk 1)) htokens
    rw [List.map_map] at hmap
    exact hmap
  have hread : readExpr 1 (readers 1 maxDepth) (firstLine e.parenthesized) = .ok (e, []) := by
    obtain ⟨levels, hlevels⟩ : ∃ levels, maxDepth = levels + 1 := ⟨255, rfl⟩
    rw [hlevels] at hheight ⊢
    have hat : ReadAt 1 levels e := readAt_of_height e (Nat.le_succ_of_le hheight)
    have hfull := hat.readExpr (ends_nil _)
    rwa [List.append_nil] at hfull
  rw [assignmentSource, ← hwords, Program.ofText, ofText_join, hlexemes]
  refine readProgram_of_last (fun hseparator => by cases hseparator) ?_
  simp [readStatement, nextLine, hread]

/-- An expression with operators of many rungs, a call and a string with escapes. -/
def mixedExpr : Expr :=
  .or
    (.compare .lt
      (.call "f" [.sign .minus (.name "x"), .literal (.str "\"\\\n")])
      (.arith .pow (.literal (.int 2)) (.literal (.int 10))))
    (.not (.and (.literal (.bool true)) (.literal .absent)))

example : String.ofList (assignmentSource .double "y" mixedExpr) =
    "y = ( ( f ( ( - x ) , \"\\\"\\\\\\n\" ) < ( 2 ** 10 ) ) or ( not ( true and none ) ) )" := by
  decide

/-- The mixed expression is read back. -/
theorem ofText_parenthesized_of_mixed :
    isName "y" ∧ (∀ y ∈ mixedExpr.identifiers, isName y) ∧
      (∀ v ∈ mixedExpr.literals, v.isWritable) ∧ 2 * mixedExpr.height ≤ maxDepth ∧
      Program.ofText (assignmentSource .double "y" mixedExpr) =
        .ok [⟨1, .assign "y" mixedExpr⟩] := by
  have hx : isName "y" := by decide
  have hnames : ∀ y ∈ mixedExpr.identifiers, isName y := by decide
  have hliterals : ∀ v ∈ mixedExpr.literals, v.isWritable :=
    List.all_eq_true.1 (by decide)
  have hheight : 2 * mixedExpr.height ≤ maxDepth := by decide
  exact ⟨hx, hnames, hliterals, hheight, ofText_parenthesized hx hnames hliterals hheight⟩

end CalcDoc.Script
