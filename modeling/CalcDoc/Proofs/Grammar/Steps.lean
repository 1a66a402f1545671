import CalcDoc.Proofs.Grammar.Programs

/-!
# Steps of the readers

What the readers do with the lexemes that stand next, one statement for each choice that they make.

- `exists_of_nextToken?`, `bind_eq_none_of_next?`: the lexeme that stands next.
- `readCall_arguments`, `readNegation_of_ne`: the readers of expressions.
- `readStatement_del`, `readStatement_of_not_assigns`: the reader of statements.
- `readProgram_of_error`, `readProgram_of_last`, `readProgram_of_separator`,
  `readProgram_of_unended`, `readProgram_of_readExpr`: the reader of programs.
-/

namespace CalcDoc.Script

/-! ## Expressions -/

theorem exists_of_nextToken? {ts : List Lexeme} {k : Token} (h : nextToken? ts = some k) :
    ∃ n us, ts = ⟨n, k⟩ :: us := by
  cases ts with
  | nil => cases h
  | cons l ts =>
    obtain rfl := Option.some.inj h
    exact ⟨l.line, ts, rfl⟩

theorem bind_eq_none_of_next? {α : Type} {meaning : Token → Option α} {ts : List Lexeme}
    (h : next? meaning ts = none) : (nextToken? ts).bind meaning = none := by
  cases ts with
  | nil => rfl
  | cons l ts =>
    rw [next?] at h
    show meaning l.token = none
    cases hl : meaning l.token with
    | none => rfl
    | some a =>
      rw [hl] at h
      cases h

theorem readClose_of_ne {α : Type} {endLine : Nat} (a : α) {ts : List Lexeme}
    (h : nextToken? ts ≠ some .closeParen) :
    readClose endLine a ts = failAt endLine (.expectedCloseParen (nextToken? ts)) ts := by
  unfold readClose
  split
  · exact absurd rfl h
  · rfl

/-- A call whose parentheses do not close at once has arguments. -/
theorem readCall_arguments {endLine : Nat} {inner : Option Readers} {f : String} {n m : Nat}
    {ts : List Lexeme} (hts : nextToken? ts ≠ some .closeParen) :
    readCall endLine inner (⟨n, .name f⟩ :: ⟨m, .openParen⟩ :: ts) =
      match readArguments endLine inner (ts.length + 1) ts with
      | .ok (args, ts) => readClose endLine (.call f args) ts
      | .error err => .error err := by
  have hopen : ∀ p us, ts = ⟨p, .closeParen⟩ :: us → False := by
    rintro p us rfl
    exact hts rfl
  exact readCall.eq_2 endLine inner n f m ts hopen

/-- Only `not` is read before a comparison. -/
theorem readNegation_of_ne {endLine : Nat} {inner : Option Readers} {ts : List Lexeme}
    (h : nextToken? ts ≠ some .not) :
    readNegation endLine inner ts = readComparison endLine inner ts := by
  rw [readNegation]
  rintro n us rfl
  exact h rfl

/-! ## Statements -/

/-- An assignment goes on with the next lexeme. -/
def Assigns (ts : List Lexeme) : Prop :=
  nextToken? ts = some .assign ∨ ∃ op, nextToken? ts = some (.augment op)

theorem readStatement_of_not_assigns {endLine : Nat} {inner : Option Readers} {ts : List Lexeme}
    (hdel : nextToken? ts ≠ some .del) (hname : ∀ n x us, ts = ⟨n, .name x⟩ :: us → ¬ Assigns us) :
    readStatement endLine inner ts =
      match readExpr endLine inner ts with
      | .error err => .error err
      | .ok (e, us) =>
        match nextToken? us with
        | some .assign | some (.augment _) => failAt endLine .notAssignable us
        | _ => .ok (⟨nextLine endLine ts, .eval e⟩, us) := by
  unfold readStatement
  dsimp only
  split
  · exact absurd rfl hdel
  · exact absurd rfl hdel
  · exact absurd (.inl rfl) (hname _ _ _ rfl)
  · exact absurd (.inr ⟨_, rfl⟩) (hname _ _ _ rfl)
  · rfl

/-- Without a name behind it, `del` deletes nothing. -/
theorem readStatement_del {endLine : Nat} {inner : Option Readers} {n : Nat} {ts : List Lexeme}
    (hname : ∀ x, nextToken? ts ≠ some (.name x)) :
    readStatement endLine inner (⟨n, .del⟩ :: ts) =
      failAt endLine (.expectedNameAfterDel (nextToken? ts)) ts.tail := by
  unfold readStatement
  dsimp only
  split
  · next hts =>
    obtain ⟨-, rfl⟩ := List.cons.inj hts
    exact absurd rfl (hname _)
  · next hts =>
    obtain ⟨-, rfl⟩ := List.cons.inj hts
    rfl
  · next hts => cases (List.cons.inj hts).1
  · next hts => cases (List.cons.inj hts).1
  · next hdel _ _ => exact (hdel _ _ rfl).elim

/-! ## Programs -/

theorem ne_separator_of_not {l : Lexeme} (h : ∀ n, l = ⟨n, .separator⟩ → False) :
    l.token ≠ .separator := by
  intro hl
  exact h l.line (by rw [← hl])

section Steps

variable {endLine : Nat} {l : Lexeme} {ls : List Lexeme} {s : Statement}
  (hl : l.token ≠ .separator)

include hl

theorem readProgram_of_error {err : Error}
    (h : readStatement endLine (readers endLine maxDepth) (l :: ls) = .error err) :
    readProgram endLine (l :: ls) = .error err := by
  rw [readProgram_cons hl, h]

theorem readProgram_of_last
    (h : readStatement endLine (readers endLine maxDepth) (l :: ls) = .ok (s, [])) :
    readProgram endLine (l :: ls) = .ok [s] := by
  rw [readProgram_cons hl, h]

theorem readProgram_of_separator {n : Nat} {rest : List Lexeme}
    (h : readStatement endLine (readers endLine maxDepth) (l :: ls) =
      .ok (s, ⟨n, .separator⟩ :: rest)) :
    readProgram endLine (l :: ls) = (readProgram endLine rest).map (s :: ·) := by
  rw [readProgram_cons hl, h]
  dsimp only
  cases readProgram endLine rest <;> rfl

theorem readProgram_of_unended {k : Lexeme} {rest : List Lexeme} (hk : k.token ≠ .separator)
    (h : readStatement endLine (readers endLine maxDepth) (l :: ls) = .ok (s, k :: rest)) :
    readProgram endLine (l :: ls) =
      .error (.malformed k.line (.expectedEndOfStatement (some k.token))) := by
  rw [readProgram_cons hl, h]
  split
  · next hx => cases hx
  · next hx => cases hx
  · next hx =>
    obtain ⟨-, hcons⟩ := Prod.mk.inj (Except.ok.inj hx)
    obtain ⟨rfl, -⟩ := List.cons.inj hcons
    exact absurd rfl hk
  · next hx =>
    obtain ⟨-, hcons⟩ := Prod.mk.inj (Except.ok.inj hx)
    obtain ⟨rfl, -⟩ := List.cons.inj hcons
    rfl

end Steps

/-- What is read as an expression up to the end is a program of that expression alone. -/
theorem readProgram_of_readExpr {endLine : Nat} {l : Lexeme} {ls : List Lexeme} {e : Expr}
    (h : readExpr endLine (readers endLine maxDepth) (l :: ls) = .ok (e, [])) :
    readProgram endLine (l :: ls) = .ok [⟨l.line, .eval e⟩] := by
  obtain ⟨us, hus, hd⟩ := sound_readExpr (readers_sound endLine maxDepth) _ _ _ h
  rw [List.append_nil] at hus
  subst hus
  have hin := hd.inExpression
  have hl : l.token.inExpression := hin _ List.mem_cons_self
  have hnext : ∀ k, nextToken? ls = some k → k.inExpression ∨ k = .separator := by
    intro k hk
    cases ls with
    | nil => cases hk
    | cons l' ls =>
      obtain rfl := Option.some.inj hk
      exact .inl (hin _ (by simp))
  have hseparator : l.token ≠ .separator := by
    intro hseparator
    rw [hseparator] at hl
    cases hl
  exact readProgram_of_last hseparator (readStatement_eval hl hnext h endsStatement_nil)

end CalcDoc.Script
