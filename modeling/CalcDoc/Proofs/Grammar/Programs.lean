import CalcDoc.Proofs.Grammar.Completeness
import CalcDoc.Proofs.Grammar.Levels
import CalcDoc.Script.Program

/-!
# The reader of programs and the grammar

The reader of programs returns what its lexemes derive, and fails on a program of the grammar only
for want of levels of nesting.

- `reads_of_derivesStatement`, `DerivesStatement.unique`: a statement is read with enough levels, so
  no row of lexemes is two statements.
- `readProgram_exact`: the grammar and the reader of programs.
-/

namespace CalcDoc.Script

open Filter

/-- What may follow a statement: the end, or a separator. -/
def EndsStatement (rest : List Lexeme) : Prop :=
  ∀ k, nextToken? rest = some k → k = .separator

theorem EndsStatement.ends {rest : List Lexeme} (h : EndsStatement rest) (r : Rung) :
    Ends r rest := by
  intro k hk s hs
  rw [h k hk] at hs
  cases hs

theorem endsStatement_nil : EndsStatement [] := by
  intro k hk
  cases hk

theorem endsStatement_separator (n : Nat) (rest : List Lexeme) :
    EndsStatement (⟨n, .separator⟩ :: rest) := by
  intro k hk
  exact (Option.some.inj hk).symm

section Statements

variable {endLine : Nat} {ls rest : List Lexeme} {l : Lexeme} {e : Expr}

/-- What begins like an expression is read as one, and not as another statement. -/
theorem readStatement_eval {inner : Option Readers} (hl : l.token.inExpression)
    (hnext : ∀ k, nextToken? ls = some k → k.inExpression ∨ k = .separator)
    (h : readExpr endLine inner (l :: ls) = .ok (e, rest)) (hend : EndsStatement rest) :
    readStatement endLine inner (l :: ls) = .ok (⟨l.line, .eval e⟩, rest) := by
  unfold readStatement
  dsimp only
  split
  · next hts =>
    obtain ⟨rfl, -⟩ := List.cons.inj hts
    cases hl
  · next hts =>
    obtain ⟨rfl, -⟩ := List.cons.inj hts
    cases hl
  · next hts =>
    obtain ⟨-, rfl⟩ := List.cons.inj hts
    rcases hnext _ rfl with hk | hk <;> cases hk
  · next hts =>
    obtain ⟨-, rfl⟩ := List.cons.inj hts
    rcases hnext _ rfl with hk | hk <;> cases hk
  · rw [h]
    dsimp only
    split
    · next hk => cases hend _ hk
    · next hk => cases hend _ hk
    · rfl

/-- A statement is read with enough levels. -/
theorem reads_of_derivesStatement (endLine : Nat) {s : Statement} (h : DerivesStatement ls s)
    (hend : EndsStatement rest) :
    ∀ᶠ n in atTop, readStatement endLine (readers endLine n) (ls ++ rest) = .ok (s, rest) := by
  cases h with
  | delete => exact .of_forall fun _ => rfl
  | assign hd =>
    have hread : ∀ᶠ n in atTop, readExpr endLine (readers endLine n) _ = _ :=
      readExpr_of_derives hd (hend.ends _)
    filter_upwards [hread] with n hn
    simp [readStatement, nextLine, hn]
  | augment hd =>
    have hread : ∀ᶠ n in atTop, readExpr endLine (readers endLine n) _ = _ :=
      readExpr_of_derives hd (hend.ends _)
    filter_upwards [hread] with n hn
    simp [readStatement, nextLine, hn]
  | @eval e l ls hd =>
    have hin := hd.inExpression
    have hnext : ∀ k, nextToken? (ls ++ rest) = some k → k.inExpression ∨ k = .separator := by
      intro k hk
      cases ls with
      | nil => exact .inr (hend k hk)
      | cons l' ls =>
        obtain rfl := Option.some.inj hk
        exact .inl (hin _ (by simp))
    filter_upwards [readExpr_of_derives hd (hend.ends _)] with n hn
    exact readStatement_eval (hin _ (by simp)) hnext hn hend

/-- No row of lexemes is two statements. -/
theorem DerivesStatement.unique {s s' : Statement} (h : DerivesStatement ls s)
    (h' : DerivesStatement ls s') : s = s' := by
  -- with enough levels both would be read from the same lexemes
  have hs := reads_of_derivesStatement 0 h endsStatement_nil
  have hs' := reads_of_derivesStatement 0 h' endsStatement_nil
  obtain ⟨n, hn, hn'⟩ := (hs.and hs').exists
  exact (Prod.mk.inj (Except.ok.inj (hn.symm.trans hn'))).1

/-- A statement of the grammar is read, unless the levels run out. -/
theorem readStatement_of_derives (endLine : Nat) {s : Statement} (h : DerivesStatement ls s)
    (hend : EndsStatement rest) (levels : Nat) :
    readStatement endLine (readers endLine levels) (ls ++ rest) = .ok (s, rest) ∨
      ∃ line, readStatement endLine (readers endLine levels) (ls ++ rest) =
        .error (.malformed line .tooDeep) := by
  -- some greater number of levels is enough
  obtain ⟨n, hn, hle⟩ :=
    ((reads_of_derivesStatement endLine h hend).and (eventually_ge_atTop levels)).exists
  rcases agrees_readStatement endLine (readers_agree endLine hle) (ls ++ rest)
    with hagree | htoo
  · exact .inl (hagree.trans hn)
  · exact .inr htoo

end Statements

/-! ## Programs -/

section Programs

variable {endLine : Nat}

/-- The reader of programs returns only what its lexemes derive. -/
theorem derivesProgram_of_read {ts : List Lexeme} {p : Program}
    (h : readProgram endLine ts = .ok p) : DerivesProgram ts p := by
  fun_induction readProgram endLine ts generalizing p with
  | case1 =>
    cases h
    exact .nil
  | case2 n rest ih => exact .separator (ih h)
  | case3 => cases h
  | case4 l rest _ s hs =>
    cases h
    obtain ⟨us, hus, hd⟩ := derivesStatement_of_read hs
    rw [hus, List.append_nil]
    exact .last hd
  | case5 l rest _ s n rest' hs ss hss ih =>
    cases h
    obtain ⟨us, hus, hd⟩ := derivesStatement_of_read hs
    rw [hus]
    exact .statement hd (ih hss)
  | case6 => cases h
  | case7 => cases h

/-- Statements hold no separators, so the first separator tells where a statement ends. -/
theorem append_separator_inj {ls ls' ms ms' : List Lexeme} {n n' : Nat} {s s' : Statement}
    (h : DerivesStatement ls s) (h' : DerivesStatement ls' s')
    (heq : ls ++ ⟨n, .separator⟩ :: ms = ls' ++ ⟨n', .separator⟩ :: ms') : ls = ls' ∧ ms = ms' := by
  -- the beginnings of statements are no statements, but they hold no separators either
  have hls := h.ne_separator
  have hls' := h'.ne_separator
  clear h h'
  induction ls generalizing ls' with
  | nil =>
    cases ls' with
    | nil => exact ⟨rfl, (List.cons.inj heq).2⟩
    | cons l' ls' =>
      obtain ⟨rfl, -⟩ := List.cons.inj heq
      exact absurd rfl (hls' _ List.mem_cons_self)
  | cons l ls ih =>
    cases ls' with
    | nil =>
      obtain ⟨rfl, -⟩ := List.cons.inj heq
      exact absurd rfl (hls _ List.mem_cons_self)
    | cons l' ls' =>
      obtain ⟨rfl, htail⟩ := List.cons.inj heq
      obtain ⟨rfl, rfl⟩ := ih htail (fun k hk => hls k (List.mem_cons_of_mem _ hk))
        (fun k hk => hls' k (List.mem_cons_of_mem _ hk))
      exact ⟨rfl, rfl⟩

/-- A row of lexemes with a separator in it is no single statement. -/
theorem DerivesStatement.not_append_separator {ls ms : List Lexeme} {n : Nat} {s : Statement}
    (h : DerivesStatement (ls ++ ⟨n, .separator⟩ :: ms) s) : False :=
  h.ne_separator ⟨n, .separator⟩ (by simp) rfl

/-- No row of lexemes is two programs. -/
theorem DerivesProgram.unique {ts : List Lexeme} {p q : Program} (hp : DerivesProgram ts p)
    (hq : DerivesProgram ts q) : q = p := by
  induction hp generalizing q with
  | nil =>
    generalize hts : ([] : List Lexeme) = ts at hq
    cases hq with
    | nil => rfl
    | separator => cases hts
    | last hs => exact absurd hts.symm hs.ne_nil
    | statement =>
      exact absurd hts.symm (List.append_ne_nil_of_right_ne_nil _ (List.cons_ne_nil _ _))
  | @separator n ls p hp ih =>
    generalize hts : (⟨n, .separator⟩ : Lexeme) :: ls = ts at hq
    cases hq with
    | nil => cases hts
    | separator hq =>
      obtain ⟨-, rfl⟩ := List.cons.inj hts
      exact ih hq
    | last hs => exact (hs.ne_separator ⟨n, .separator⟩ (hts ▸ List.mem_cons_self) rfl).elim
    | @statement us _ _ _ _ hs =>
      cases us with
      | nil => exact absurd rfl hs.ne_nil
      | cons l us =>
        obtain ⟨rfl, -⟩ := List.cons.inj hts
        exact (hs.ne_separator _ List.mem_cons_self rfl).elim
  | @last ls s hs =>
    cases hq with
    | nil => exact absurd rfl hs.ne_nil
    | separator => exact (hs.ne_separator _ List.mem_cons_self rfl).elim
    | last hs' => rw [hs.unique hs']
    | statement => exact hs.not_append_separator.elim
  | @statement ls ms n s p hs hp ih =>
    generalize hts : ls ++ (⟨n, .separator⟩ : Lexeme) :: ms = ts at hq
    cases hq with
    | nil => exact absurd hts (List.append_ne_nil_of_right_ne_nil _ (List.cons_ne_nil _ _))
    | separator hq =>
      cases ls with
      | nil => exact absurd rfl hs.ne_nil
      | cons l ls =>
        obtain ⟨rfl, -⟩ := List.cons.inj hts
        exact (hs.ne_separator _ List.mem_cons_self rfl).elim
    | last hs' =>
      subst hts
      exact hs'.not_append_separator.elim
    | statement hs' hq =>
      -- both statements end at the first separator
      obtain ⟨rfl, rfl⟩ := append_separator_inj hs hs' hts
      rw [hs.unique hs', ih hq]

/-- How the reader of programs goes on after a statement. -/
theorem readProgram_cons {l : Lexeme} {ls : List Lexeme} (hl : l.token ≠ .separator) :
    readProgram endLine (l :: ls) =
      match readStatement endLine (readers endLine maxDepth) (l :: ls) with
      | .error err => .error err
      | .ok (s, []) => .ok [s]
      | .ok (s, ⟨_, .separator⟩ :: rest) =>
        match readProgram endLine rest with
        | .ok ss => .ok (s :: ss)
        | .error err => .error err
      | .ok (_, k :: _) => .error (.malformed k.line (.expectedEndOfStatement (some k.token))) := by
  rw [readProgram]
  · split
    · next hx => rw [hx]
    · next hx => rw [hx]
    · next rest hx => cases hrest : readProgram endLine rest <;> simp only [hx, hrest]
    · next hk hx =>
      rw [hx]
      split
      · next hy => cases hy
      · next hy => cases hy
      · next hy =>
        obtain ⟨-, hcons⟩ := Prod.mk.inj (Except.ok.inj hy)
        exact (hk _ (List.cons.inj hcons).1).elim
      · next hy =>
        obtain ⟨-, hcons⟩ := Prod.mk.inj (Except.ok.inj hy)
        obtain ⟨rfl, -⟩ := List.cons.inj hcons
        rfl
  · rintro n rfl
    exact hl rfl

/-- A program of the grammar is read, unless the levels run out in one of its statements. -/
theorem readProgram_of_derives {ts : List Lexeme} {p : Program} (h : DerivesProgram ts p) :
    readProgram endLine ts = .ok p ∨
      ∃ line, readProgram endLine ts = .error (.malformed line .tooDeep) := by
  induction h with
  | nil => exact .inl (by rw [readProgram])
  | separator _ ih =>
    rw [readProgram]
    exact ih
  | @last ls s hs =>
    cases ls with
    | nil => exact absurd rfl hs.ne_nil
    | cons l ls =>
      have hread := readStatement_of_derives endLine hs endsStatement_nil maxDepth
      rw [List.append_nil] at hread
      rw [readProgram_cons (hs.ne_separator l List.mem_cons_self)]
      rcases hread with h | ⟨line, h⟩
      · exact .inl (by rw [h])
      · exact .inr ⟨line, by rw [h]⟩
  | @statement ls ms n s p hs hp ih =>
    cases ls with
    | nil => exact absurd rfl hs.ne_nil
    | cons l ls =>
      have hread :=
        readStatement_of_derives endLine hs (endsStatement_separator n ms) maxDepth
      rw [List.cons_append] at hread ⊢
      rw [readProgram_cons (hs.ne_separator l List.mem_cons_self)]
      rcases hread with h | ⟨line, h⟩
      · rw [h]
        dsimp only
        rcases ih with h | ⟨line, h⟩
        · exact .inl (by rw [h])
        · exact .inr ⟨line, by rw [h]⟩
      · exact .inr ⟨line, by rw [h]⟩

end Programs

/-- The reader of programs and the grammar agree. What it returns is derived from the lexemes; and
if the lexemes derive a program, they derive no other, and the reader returns it or fails because
an expression is nested too deeply. -/
theorem readProgram_exact (endLine : Nat) (ts : List Lexeme) :
    (∀ p, readProgram endLine ts = .ok p → DerivesProgram ts p) ∧
    ∀ p, DerivesProgram ts p →
      (∀ q, DerivesProgram ts q → q = p) ∧
      (readProgram endLine ts = .ok p ∨
        ∃ line, readProgram endLine ts = .error (.malformed line .tooDeep)) :=
  ⟨fun _ => derivesProgram_of_read,
    fun _ hp => ⟨fun _ hq => hp.unique hq, readProgram_of_derives hp⟩⟩

end CalcDoc.Script
