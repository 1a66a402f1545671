import CalcDoc.Proofs.Definedness.Cursor
import CalcDoc.Proofs.Grammar.Steps

/-!
# The cursor reads what the readers read

The machine with a cursor is defined on all lexemes and reads what the readers of the grammar read:
its cursor stands before the lexemes that they leave, and its depth is what it was before. So as
many levels are left for an expression as the readers have.

- `Follows`: the machine reads what the readers of a level read.
- `LevelsFollow`: the machine has as many levels left as the readers.
- `levelsFollow`: it has, by induction on the levels.
- `Program.ofLexemes?_eq`: the machine is defined on the lexemes of every source.
-/

namespace CalcDoc.Script

namespace Machine

open Lexemes

variable {ls : Lexemes}

/-- What the machine gives for a reading: the same value, with the cursor before the lexemes that
are left, or the same error. -/
def ended {α : Type} (ls : Lexemes) (depth : Nat) : Reading α → Except Error (α × Cursor)
  | .ok (a, rest) => .ok (a, cursor ls rest depth)
  | .error err => .error err

/-- What is read after an expression, if the expression has been read. -/
theorem run_andThen {α : Type} {m : Machine Expr} {k : Expr → Machine α} {c : Cursor}
    {r : Reading Expr} {K : Expr → List Lexeme → Reading α} {depth depth' : Nat} :
    run m c = some (ended ls depth r) →
    (∀ e rest, r = .ok (e, rest) →
      run (k e) (cursor ls rest depth) = some (ended ls depth' (K e rest))) →
    run (m >>= k) c =
      some (ended ls depth' (match r with | .ok (e, ts) => K e ts | .error err => .error err)) := by
  intro hm hk
  cases r with
  | ok p => exact (run_bind hm k).trans (hk p.1 p.2 rfl)
  | error err => exact run_bind_error hm k

/-- The machine reads what the readers of a level read, with the cursor one level deeper for each
operand of a chain that has been read. -/
structure Follows (ls : Lexemes) (depth : Nat) (r : Readers) : Prop where
  chain : ∀ c ts, ts <:+ ls.items →
    run (Lexemes.chain ls c) (cursor ls ts depth) = some (ended ls depth (r.chain c ts))
  more : ∀ c e levels ts, ts <:+ ls.items → levels ≤ depth →
    run (Lexemes.more ls c e levels) (cursor ls ts depth) =
      some (ended ls (depth - levels) (r.more c e ts))
  negation : ∀ ts, ts <:+ ls.items →
    run (Lexemes.negation ls) (cursor ls ts depth) = some (ended ls depth (r.negation ts))
  signed : ∀ ts, ts <:+ ls.items →
    run (Lexemes.signed ls) (cursor ls ts depth) = some (ended ls depth (r.signed ts))

theorem Follows.operand {depth : Nat} {r : Readers} (h : Follows ls depth r) (c : Chain)
    {ts : List Lexeme} (hts : ts <:+ ls.items) :
    run (Lexemes.operand ls c) (cursor ls ts depth) = some (ended ls depth (r.operand c ts)) := by
  cases c with
  | either => rw [Lexemes.operand]; exact h.chain .both ts hts
  | both => rw [Lexemes.operand]; exact h.negation ts hts
  | sum => rw [Lexemes.operand]; exact h.chain .product ts hts
  | product => rw [Lexemes.operand]; exact h.signed ts hts

/-- The machine can go in as many levels as there are readers, and reads there what they read. -/
inductive LevelsFollow (ls : Lexemes) : Nat → Option Readers → Prop where
  | innermost : LevelsFollow ls maxDepth none
  | level {depth r} : depth < maxDepth → r.Take → Follows ls (depth + 1) r →
      LevelsFollow ls depth (some r)

theorem LevelsFollow.take {depth : Nat} {inner : Option Readers} (h : LevelsFollow ls depth inner) :
    ∀ r, inner = some r → r.Take := by
  rintro r rfl
  cases h with
  | level _ htake _ => exact htake

/-- What is read one level further in, and what is made of it outside. -/
theorem run_leaving {m : Machine Expr} {f : Expr → Expr} {c : Cursor} {r : Reading Expr}
    {depth : Nat} (h : run m c = some (ended ls (depth + 1) r)) :
    run (do let e ← m; leave 1; return f e) c =
      some (ended ls depth
        (match r with | .ok (e, ts) => .ok (f e, ts) | .error err => .error err)) :=
  run_andThen h fun _ _ _ => run_bind (run_leave (Nat.le_add_left 1 depth)) _

section Levels

variable {depth : Nat} {inner : Option Readers} (levels : LevelsFollow ls depth inner)
  {ts : List Lexeme} (hts : ts <:+ ls.items)

include levels hts

/-- What is read one level further in. -/
theorem run_enter_andThen {α : Type} {k : Unit → Machine α} {read : Readers → Reading α}
    {depth' : Nat}
    (hread : ∀ r, r.Take → Follows ls (depth + 1) r →
      run (k ()) (cursor ls ts (depth + 1)) = some (ended ls depth' (read r))) :
    run (enter ls >>= k) (cursor ls ts depth) =
      some (ended ls depth' (descend ls.endLine inner ts read)) := by
  cases levels with
  | innermost => exact run_bind_error (run_enter_deepest hts) k
  | level hlt htake hfollows =>
    exact (run_bind (run_enter ls hlt) k).trans (hread _ htake hfollows)

theorem run_expression :
    run (expression ls) (cursor ls ts depth) =
      some (ended ls depth (readExpr ls.endLine inner ts)) := by
  rw [expression]
  refine run_enter_andThen levels hts fun r _ hr => ?_
  have hchain := hr.chain .either ts hts
  cases he : r.chain .either ts with
  | error err =>
    rw [he] at hchain
    exact run_bind_error hchain _
  | ok p =>
    rw [he] at hchain
    refine (run_bind hchain _).trans ?_
    exact run_bind (run_leave (Nat.le_add_left 1 depth)) _

omit levels in
/-- What is read inside of parentheses. -/
theorem run_close {α : Type} (a : α) :
    run (do close ls; return a) (cursor ls ts depth) =
      some (ended ls depth (readClose ls.endLine a ts)) := by
  by_cases h : nextToken? ts = some .closeParen
  · obtain ⟨n, us, rfl⟩ := exists_of_nextToken? h
    have hclose : run (close ls) (cursor ls (⟨n, .closeParen⟩ :: us) depth) =
        some (.ok ((), cursor ls us depth)) :=
      (run_bind (run_peek hts depth) _).trans (run_bind (run_advance hts depth) _)
    exact run_bind hclose _
  · have hclose : run (close ls) (cursor ls ts depth) =
        some (.error (.malformed (nextLine ls.endLine ts)
          (.expectedCloseParen (nextToken? ts)))) := by
      refine (run_bind (run_peek hts depth) _).trans ?_
      split
      · next hk => exact absurd hk h
      · exact run_fail hts depth _
    rw [readClose_of_ne a h]
    exact run_bind_error hclose _

theorem run_atom :
    run (atom ls) (cursor ls ts depth) =
      some (ended ls depth (readAtom ls.endLine inner ts)) := by
  rw [atom]
  refine (run_bind (run_advance hts depth) _).trans ?_
  cases ts with
  | nil => exact run_fail hts depth (.expectedExpression none)
  | cons l ts =>
    obtain ⟨n, k⟩ := l
    have hrest : ts <:+ ls.items := (List.suffix_cons _ ts).trans hts
    cases k with
    | openParen =>
      refine run_andThen (run_expression levels hrest) fun e rest he => ?_
      exact run_close (((takes_readExpr levels.take _ _ _ he).1).trans hrest) e
    | int | float | str | name | bool | absent => rfl
    | and | or | not | del | arith | compare | assign | augment | closeParen | comma | separator =>
      exact run_fail hrest depth (.expectedExpression (some _))

/-- The arguments of a call, of which no more are tried than the lexemes could hold. -/
theorem run_arguments {count : Nat} (hcount : ts.length < count) (args : List Expr) :
    run (arguments ls args) (cursor ls ts depth) =
      some (ended ls depth ((readArguments ls.endLine inner count ts).map fun p =>
        (args ++ p.1, p.2))) := by
  induction count generalizing ts args with
  | zero => exact absurd hcount (Nat.not_lt_zero _)
  | succ count ih =>
    have hexpr := run_expression levels hts
    rw [arguments]
    cases he : readExpr ls.endLine inner ts with
    | error err =>
      rw [he] at hexpr
      rw [readArguments, he]
      exact run_bind_error hexpr _
    | ok p =>
      obtain ⟨e, rest⟩ := p
      rw [he] at hexpr
      obtain ⟨hsuffix, hlength⟩ := takes_readExpr levels.take _ _ _ he
      have hrest : rest <:+ ls.items := hsuffix.trans hts
      refine (run_bind hexpr _).trans ((run_bind (run_peek hrest depth) _).trans ?_)
      by_cases hcomma : nextToken? rest = some .comma
      · obtain ⟨n, us, rfl⟩ := exists_of_nextToken? hcomma
        have hus : us <:+ ls.items := (List.suffix_cons _ us).trans hrest
        refine (run_bind (run_advance hrest depth) _).trans
          ((run_bind (run_peek hus depth) _).trans ?_)
        by_cases hclose : nextToken? us = some .closeParen
        · obtain ⟨m, vs, rfl⟩ := exists_of_nextToken? hclose
          rw [readArguments, he]
          rfl
        · rw [List.length_cons] at hlength
          have hmore := ih hus (show us.length < count by omega) (args ++ [e])
          rw [readArguments_comma he hclose]
          split
          · next hk => exact absurd hk hclose
          · refine hmore.trans ?_
            cases readArguments ls.endLine inner count us with
            | error err => rfl
            | ok p =>
              show some (ended ls depth (.ok (args ++ [e] ++ p.1, p.2))) = _
              rw [List.append_assoc]
              rfl
      · rw [readArguments_last he hcomma]
        split
        · next hk => exact absurd hk hcomma
        · rfl

theorem run_call :
    run (call ls) (cursor ls ts depth) =
      some (ended ls depth (readCall ls.endLine inner ts)) := by
  rw [call]
  refine (run_bind (run_peek hts depth) _).trans ((run_bind (run_peekBehind hts depth) _).trans ?_)
  by_cases hcall : ∃ n f m us, ts = ⟨n, .name f⟩ :: ⟨m, .openParen⟩ :: us
  · obtain ⟨n, f, m, us, rfl⟩ := hcall
    have hopen : ⟨m, .openParen⟩ :: us <:+ ls.items := (List.suffix_cons _ _).trans hts
    have hus : us <:+ ls.items := (List.suffix_cons _ _).trans hopen
    refine (run_bind (run_advance hts depth) _).trans ((run_bind (run_advance hopen depth) _).trans
      ((run_bind (run_peek hus depth) _).trans ?_))
    by_cases hclose : nextToken? us = some .closeParen
    · obtain ⟨i, vs, rfl⟩ := exists_of_nextToken? hclose
      exact run_close hus (Expr.call f [])
    · rw [readCall_arguments hclose]
      have hargs := run_arguments levels hus (Nat.lt_succ_self us.length) []
      split
      · next hk => exact absurd hk hclose
      · cases ha : readArguments ls.endLine inner (us.length + 1) us with
        | error err =>
          rw [ha] at hargs
          exact run_bind_error hargs _
        | ok p =>
          rw [ha] at hargs
          refine (run_bind hargs _).trans ?_
          exact run_close ((keeps_readArguments levels.take _ _ _ _ ha).trans hus)
            (Expr.call f p.1)
  · rw [readCall_atom hcall]
    split
    · next hname hopen =>
      obtain ⟨n, us, rfl⟩ := exists_of_nextToken? hname
      obtain ⟨m, us, rfl⟩ := exists_of_nextToken? hopen
      exact absurd ⟨n, _, m, us, rfl⟩ hcall
    · exact run_atom levels hts

theorem run_power :
    run (power ls) (cursor ls ts depth) =
      some (ended ls depth (readPower ls.endLine inner ts)) := by
  rw [power]
  have hcall := run_call levels hts
  cases hb : readCall ls.endLine inner ts with
  | error err =>
    rw [hb] at hcall
    rw [readPower, hb]
    exact run_bind_error hcall _
  | ok p =>
    obtain ⟨base, rest⟩ := p
    rw [hb] at hcall
    have hrest : rest <:+ ls.items := (takes_readCall levels.take _ _ _ hb).1.trans hts
    refine (run_bind hcall _).trans ((run_bind (run_peek hrest depth) _).trans ?_)
    by_cases hpow : nextToken? rest = some (.arith .pow)
    · obtain ⟨n, us, rfl⟩ := exists_of_nextToken? hpow
      have hus : us <:+ ls.items := (List.suffix_cons _ us).trans hrest
      rw [readPower, hb]
      refine (run_bind (run_advance hrest depth) _).trans ?_
      exact run_enter_andThen levels hus fun r _ hr => run_leaving (hr.signed us hus)
    · rw [readPower_of_ne hb hpow]
      split
      · next hk => exact absurd hk hpow
      · rfl

theorem run_signed :
    run (signed ls) (cursor ls ts depth) =
      some (ended ls depth (readSigned ls.endLine inner ts)) := by
  rw [signed, readSigned]
  refine (run_bind (run_peek hts depth) _).trans ?_
  cases hn : next? Token.sign? ts with
  | none =>
    rw [bind_eq_none_of_next? hn]
    exact run_power levels hts
  | some p =>
    obtain ⟨op, us⟩ := p
    obtain ⟨l, rfl, hop⟩ := exists_of_next? hn
    have hus : us <:+ ls.items := (List.suffix_cons l us).trans hts
    rw [show (nextToken? (l :: us)).bind Token.sign? = some op from hop]
    refine (run_bind (run_advance hts depth) _).trans ?_
    exact run_enter_andThen levels hus fun r _ hr => run_leaving (hr.signed us hus)

/-- The rest of a chain leaves the levels of all its operands. -/
theorem run_more (c : Chain) (left : Expr) {k : Nat} (hk : k ≤ depth) :
    run (more ls c left k) (cursor ls ts depth) =
      some (ended ls (depth - k) (readMore ls.endLine inner c left ts)) := by
  rw [more, readMore]
  refine (run_bind (run_peek hts depth) _).trans ?_
  cases hn : next? c.join? ts with
  | none =>
    rw [bind_eq_none_of_next? hn]
    exact run_bind (run_leave hk) _
  | some p =>
    obtain ⟨join, us⟩ := p
    obtain ⟨l, rfl, hjoin⟩ := exists_of_next? hn
    have hus : us <:+ ls.items := (List.suffix_cons l us).trans hts
    rw [show (nextToken? (l :: us)).bind c.join? = some join from hjoin]
    refine (run_bind (run_advance hts depth) _).trans ?_
    refine run_enter_andThen levels hus fun r htake hr => ?_
    refine run_andThen (hr.operand c hus) fun right rest hright => ?_
    have hrest : rest <:+ ls.items := (htake.operand c _ _ _ hright).1.trans hus
    rw [← Nat.add_sub_add_right depth 1 k]
    exact hr.more c (join left right) (k + 1) rest hrest (Nat.succ_le_succ hk)

/-- A chain is its first operand and the rest. -/
theorem run_chain (c : Chain) {read : List Lexeme → Reading Expr} (htakes : Takes read)
    (hoperand : run (operand ls c) (cursor ls ts depth) = some (ended ls depth (read ts))) :
    run (chain ls c) (cursor ls ts depth) =
      some (ended ls depth
        (match read ts with
        | .ok (e, ts) => readMore ls.endLine inner c e ts
        | .error err => .error err)) := by
  rw [chain]
  refine run_andThen hoperand fun left rest hleft => ?_
  have hrest : rest <:+ ls.items := (htakes _ _ _ hleft).1.trans hts
  exact run_more levels hrest c left (Nat.zero_le depth)

theorem run_product :
    run (chain ls .product) (cursor ls ts depth) =
      some (ended ls depth (readProduct ls.endLine inner ts)) := by
  refine run_chain levels hts .product (takes_readSigned levels.take) ?_
  rw [operand]
  exact run_signed levels hts

theorem run_sum :
    run (chain ls .sum) (cursor ls ts depth) =
      some (ended ls depth (readSum ls.endLine inner ts)) := by
  refine run_chain levels hts .sum (takes_readProduct levels.take) ?_
  rw [operand]
  exact run_product levels hts

theorem run_comparison :
    run (comparison ls) (cursor ls ts depth) =
      some (ended ls depth (readComparison ls.endLine inner ts)) := by
  rw [comparison, readComparison]
  have hleft := run_sum levels hts
  cases ha : readSum ls.endLine inner ts with
  | error err =>
    rw [ha] at hleft
    exact run_bind_error hleft _
  | ok p =>
    obtain ⟨left, us⟩ := p
    rw [ha] at hleft
    have hus : us <:+ ls.items := (takes_readSum levels.take _ _ _ ha).1.trans hts
    refine (run_bind hleft _).trans ((run_bind (run_peek hus depth) _).trans ?_)
    dsimp only
    cases hn : next? Token.compare? us with
    | none =>
      rw [bind_eq_none_of_next? hn]
      rfl
    | some p =>
      obtain ⟨op, vs⟩ := p
      obtain ⟨l, rfl, hop⟩ := exists_of_next? hn
      have hvs : vs <:+ ls.items := (List.suffix_cons l vs).trans hus
      rw [show (nextToken? (l :: vs)).bind Token.compare? = some op from hop]
      refine (run_bind (run_advance hus depth) _).trans ?_
      have hright := run_sum levels hvs
      dsimp only
      cases hb : readSum ls.endLine inner vs with
      | error err =>
        rw [hb] at hright
        exact run_bind_error hright _
      | ok p =>
        obtain ⟨right, ws⟩ := p
        rw [hb] at hright
        have hws : ws <:+ ls.items := (takes_readSum levels.take _ _ _ hb).1.trans hvs
        refine (run_bind hright _).trans ((run_bind (run_peek hws depth) _).trans ?_)
        dsimp only
        cases hn' : next? Token.compare? ws with
        | none =>
          rw [bind_eq_none_of_next? hn']
          rfl
        | some p =>
          obtain ⟨l', hl', hop'⟩ := exists_of_next? hn'
          rw [hl', show (nextToken? (l' :: p.2)).bind Token.compare? = some p.1 from hop', ← hl']
          exact run_fail hws depth .chainedComparison

theorem run_negation :
    run (negation ls) (cursor ls ts depth) =
      some (ended ls depth (readNegation ls.endLine inner ts)) := by
  rw [negation]
  refine (run_bind (run_peek hts depth) _).trans ?_
  by_cases hnot : nextToken? ts = some .not
  · obtain ⟨n, us, rfl⟩ := exists_of_nextToken? hnot
    have hus : us <:+ ls.items := (List.suffix_cons _ us).trans hts
    refine (run_bind (run_advance hts depth) _).trans ?_
    exact run_enter_andThen levels hus fun r _ hr => run_leaving (hr.negation us hus)
  · rw [readNegation_of_ne hnot]
    split
    · next hk => exact absurd hk hnot
    · exact run_comparison levels hts

theorem run_both :
    run (chain ls .both) (cursor ls ts depth) =
      some (ended ls depth (readBoth ls.endLine inner ts)) := by
  refine run_chain levels hts .both (takes_readNegation levels.take) ?_
  rw [operand]
  exact run_negation levels hts

theorem run_either :
    run (chain ls .either) (cursor ls ts depth) =
      some (ended ls depth (readEither ls.endLine inner ts)) := by
  refine run_chain levels hts .either (takes_readBoth levels.take) ?_
  rw [operand]
  exact run_both levels hts

theorem run_statement_eval (hdel : nextToken? ts ≠ some .del)
    (hname : ∀ n x us, ts = ⟨n, .name x⟩ :: us → ¬ Assigns us) :
    run (statement ls) (cursor ls ts depth) =
      some (ended ls depth (readStatement ls.endLine inner ts)) := by
  rw [statement, readStatement_of_not_assigns hdel hname]
  refine (run_bind (run_line hts depth) _).trans ((run_bind (run_peek hts depth) _).trans
    ((run_bind (run_peekBehind hts depth) _).trans ?_))
  split
  · next hk => exact absurd hk hdel
  · next hk hassign =>
    obtain ⟨n, us, rfl⟩ := exists_of_nextToken? hk
    exact absurd (.inl hassign) (hname _ _ _ rfl)
  · next hk haugment =>
    obtain ⟨n, us, rfl⟩ := exists_of_nextToken? hk
    exact absurd (.inr ⟨_, haugment⟩) (hname _ _ _ rfl)
  · have hexpr := run_expression levels hts
    cases he : readExpr ls.endLine inner ts with
    | error err =>
      rw [he] at hexpr
      exact run_bind_error hexpr _
    | ok p =>
      obtain ⟨e, us⟩ := p
      rw [he] at hexpr
      have hus : us <:+ ls.items := (takes_readExpr levels.take _ _ _ he).1.trans hts
      refine (run_bind hexpr _).trans ((run_bind (run_peek hus depth) _).trans ?_)
      cases us with
      | nil => rfl
      | cons l us =>
        obtain ⟨n, k⟩ := l
        cases k with
        | assign => exact run_fail hus depth .notAssignable
        | augment op => exact run_fail hus depth .notAssignable
        | _ => rfl

theorem run_statement :
    run (statement ls) (cursor ls ts depth) =
      some (ended ls depth (readStatement ls.endLine inner ts)) := by
  by_cases hdel : nextToken? ts = some .del
  · obtain ⟨n, us, rfl⟩ := exists_of_nextToken? hdel
    have hus : us <:+ ls.items := (List.suffix_cons _ us).trans hts
    rw [statement]
    refine (run_bind (run_line hts depth) _).trans ((run_bind (run_peek hts depth) _).trans
      ((run_bind (run_peekBehind hts depth) _).trans ((run_bind (run_advance hts depth) _).trans
      ((run_bind (run_advance hus depth) _).trans ?_))))
    by_cases hname : ∃ x, nextToken? us = some (.name x)
    · obtain ⟨x, hx⟩ := hname
      obtain ⟨m, vs, rfl⟩ := exists_of_nextToken? hx
      rfl
    · rw [readStatement_del fun x hx => hname ⟨x, hx⟩]
      split
      · next hx => exact absurd ⟨_, hx⟩ hname
      · exact run_fail ((List.tail_suffix us).trans hus) depth _
  · by_cases hassigns : ∃ n x us, ts = ⟨n, .name x⟩ :: us ∧ Assigns us
    · -- an assignment reads its expression behind the name and the sign
      have assignment {n : Nat} {x : String} {l : Lexeme} {us : List Lexeme}
          {make : Expr → Statement} (hts : ⟨n, .name x⟩ :: l :: us <:+ ls.items) :
          run (do
            let _ ← advance ls
            let _ ← advance ls
            let e ← expression ls
            return make e) (cursor ls (⟨n, .name x⟩ :: l :: us) depth) =
          some (ended ls depth (match readExpr ls.endLine inner us with
            | .ok (e, ts) => .ok (make e, ts)
            | .error err => .error err)) := by
        have hl : l :: us <:+ ls.items := (List.suffix_cons _ _).trans hts
        have hus : us <:+ ls.items := (List.suffix_cons _ _).trans hl
        refine (run_bind (run_advance hts depth) _).trans
          ((run_bind (run_advance hl depth) _).trans ?_)
        exact run_andThen (run_expression levels hus) fun _ _ _ => rfl
      obtain ⟨n, x, us, rfl, hus | ⟨op, hus⟩⟩ := hassigns
      · obtain ⟨m, vs, rfl⟩ := exists_of_nextToken? hus
        rw [statement]
        refine (run_bind (run_line hts depth) _).trans ((run_bind (run_peek hts depth) _).trans
          ((run_bind (run_peekBehind hts depth) _).trans ?_))
        exact assignment hts
      · obtain ⟨m, vs, rfl⟩ := exists_of_nextToken? hus
        rw [statement]
        refine (run_bind (run_line hts depth) _).trans ((run_bind (run_peek hts depth) _).trans
          ((run_bind (run_peekBehind hts depth) _).trans ?_))
        exact assignment hts
    · exact run_statement_eval levels hts hdel fun n x us hts h => hassigns ⟨n, x, us, hts, h⟩

omit hts in
/-- The machine follows the readers of the level around those that it follows. -/
theorem follows_around : Follows ls depth (Readers.around ls.endLine inner) where
  chain
    | .either, _, hts => run_either levels hts
    | .both, _, hts => run_both levels hts
    | .sum, _, hts => run_sum levels hts
    | .product, _, hts => run_product levels hts
  more c e _ _ hts hk := run_more levels hts c e hk
  negation _ hts := run_negation levels hts
  signed _ hts := run_signed levels hts

end Levels

/-- At every depth the machine has as many levels left as the readers. -/
theorem levelsFollow (ls : Lexemes) {depth levels : Nat} (h : depth + levels = maxDepth) :
    LevelsFollow ls depth (readers ls.endLine levels) := by
  induction levels generalizing depth with
  | zero =>
    obtain rfl : depth = maxDepth := h
    exact .innermost
  | succ levels ih =>
    have hinner := ih (show depth + 1 + levels = maxDepth by omega)
    exact .level (by omega) (readers_take ls.endLine (levels + 1) _ rfl) (follows_around hinner)

/-- What is no separator begins a statement. -/
theorem run_program_statement {c : Cursor} {k : Token}
    (hpeek : run (peek ls) c = some (.ok (some k, c))) (hk : k ≠ .separator) (ss : Program) :
    run (program ls ss) c =
      run (do
        let s ← statement ls
        match ← peek ls with
        | some .separator | none => program ls (ss ++ [s])
        | k => fail ls (.expectedEndOfStatement k)) c := by
  rw [program]
  refine (run_bind hpeek _).trans ?_
  split
  · next hk' => exact absurd (Option.some.inj hk') hk
  · next hk' => cases hk'
  · rfl

section Programs

variable {l : Lexeme} {ts : List Lexeme} (hts : l :: ts <:+ ls.items) (hl : l.token ≠ .separator)
  (ss : Program)

include hts hl

theorem run_program_of_error {err : Error}
    (hs : readStatement ls.endLine (readers ls.endLine maxDepth) (l :: ts) = .error err) :
    run (program ls ss) (cursor ls (l :: ts) 0) = some (.error err) := by
  have hstatement := run_statement (levelsFollow ls (Nat.zero_add maxDepth)) hts
  rw [hs] at hstatement
  rw [run_program_statement (run_peek hts 0) hl]
  exact run_bind_error hstatement _

/-- Behind a statement the machine looks for its end. -/
theorem run_program_of_ok {s : Statement} {rest : List Lexeme}
    (hs : readStatement ls.endLine (readers ls.endLine maxDepth) (l :: ts) = .ok (s, rest)) :
    rest <:+ ls.items ∧ run (program ls ss) (cursor ls (l :: ts) 0) =
      run (match nextToken? rest with
        | some .separator | none => program ls (ss ++ [s])
        | k => fail ls (.expectedEndOfStatement k)) (cursor ls rest 0) := by
  have hstatement := run_statement (levelsFollow ls (Nat.zero_add maxDepth)) hts
  have hrest : rest <:+ ls.items :=
    (takes_readStatement (readers_take ls.endLine maxDepth) _ _ _ hs).1.trans hts
  rw [hs] at hstatement
  rw [run_program_statement (run_peek hts 0) hl]
  exact ⟨hrest, (run_bind hstatement _).trans (run_bind (run_peek hrest 0) _)⟩

end Programs

/-- The machine reads the statements of a program with all levels of nesting for each. -/
theorem run_program {ts : List Lexeme} (hts : ts <:+ ls.items) (ss : Program) :
    run (program ls ss) (cursor ls ts 0) =
      some ((readProgram ls.endLine ts).map fun p => (ss ++ p, cursor ls [] 0)) := by
  fun_induction readProgram ls.endLine ts generalizing ss with
  | case1 =>
    rw [program]
    refine (run_bind (run_peek hts 0) _).trans ?_
    rw [Except.map, List.append_nil]
    rfl
  | case2 n rest ih =>
    rw [program]
    refine (run_bind (run_peek hts 0) _).trans ((run_bind (run_advance hts 0) _).trans ?_)
    exact ih ((List.suffix_cons _ rest).trans hts) ss
  | case3 l rest hsep err hs => exact run_program_of_error hts (ne_separator_of_not hsep) ss hs
  | case4 l rest hsep s hs =>
    obtain ⟨hrest, hrun⟩ := run_program_of_ok hts (ne_separator_of_not hsep) ss hs
    refine hrun.trans ?_
    rw [nextToken?, program]
    exact run_bind (run_peek hrest 0) _
  | case5 l rest hsep s n rest' hs ss' hss ih =>
    obtain ⟨hsep', hrun⟩ := run_program_of_ok hts (ne_separator_of_not hsep) ss hs
    have hrest : rest' <:+ ls.items := (List.suffix_cons _ rest').trans hsep'
    refine hrun.trans ?_
    rw [nextToken?, program]
    refine (run_bind (run_peek hsep' 0) _).trans ((run_bind (run_advance hsep' 0) _).trans ?_)
    have hmore := ih hrest (ss ++ [s])
    rw [hss] at hmore
    refine hmore.trans ?_
    rw [Except.map, Except.map, List.append_assoc]
    rfl
  | case6 l rest hsep s n rest' hs err hss ih =>
    obtain ⟨hsep', hrun⟩ := run_program_of_ok hts (ne_separator_of_not hsep) ss hs
    have hrest : rest' <:+ ls.items := (List.suffix_cons _ rest').trans hsep'
    refine hrun.trans ?_
    rw [nextToken?, program]
    refine (run_bind (run_peek hsep' 0) _).trans ((run_bind (run_advance hsep' 0) _).trans ?_)
    have hmore := ih hrest (ss ++ [s])
    rw [hss] at hmore
    exact hmore
  | case7 l rest hsep s l' rest' hnext hs =>
    obtain ⟨hrest, hrun⟩ := run_program_of_ok hts (ne_separator_of_not hsep) ss hs
    refine hrun.trans ?_
    split
    · next hk => exact absurd (Option.some.inj hk) (ne_separator_of_not hnext)
    · next hk => cases hk
    · exact run_fail hrest 0 (.expectedEndOfStatement (some l'.token))

end Machine

/-- The machine is defined on all lexemes, and reads the program that the readers read. -/
theorem Program.ofLexemes?_eq (ls : Lexemes) :
    Program.ofLexemes? ls = some (readProgram ls.endLine ls.items) := by
  have hstart : Machine.cursor ls ls.items 0 = ⟨0, 0⟩ := by
    rw [Machine.cursor, Nat.sub_self]
  rw [Program.ofLexemes?, ← hstart, Machine.run_program (List.suffix_refl ls.items) []]
  cases readProgram ls.endLine ls.items <;> rfl

end CalcDoc.Script
