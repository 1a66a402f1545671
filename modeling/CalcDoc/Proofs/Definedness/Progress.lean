import CalcDoc.Proofs.Definedness.Reading
import Mathlib.Logic.Relation

/-!
# The cursor moves on

Wherever the cursor stands, a reader of expressions that succeeds leaves it further on, at most at
the end, and in as many levels of nesting as before. The cursor is held at the end, so a reader that
could succeed there would not move it; but none can.

So does the reader of statements, and the loop over them comes to its end: each of its turns moves
the cursor on, and starts outside of all levels.

- `Machine.Moved`: where a cursor may have moved to.
- `Machine.MovesOn`: a machine comes to its end, and moves the cursor on if it succeeds.
- `Machine.Fails`: a machine fails; `fails_expression` and the lemmas before it say that the readers
  fail at the end.
- `Lexemes.expressionReaders`: the readers of expressions.
- `Lexemes.Turn`: a turn of the loop over statements; `Turn.run_program` is what it does, and
  `Turn.moved` where it leaves the cursor.
- `Lexemes.readers_moveOn`: the readers move on, and the loop ends.
-/

namespace CalcDoc.Script

open Relation

namespace Machine

variable {ls : Lexemes} {c : Cursor} {α β : Type}

/-- A cursor is further on than another, no further than the end of the lexemes, and in as many
levels. -/
structure Moved (ls : Lexemes) (c d : Cursor) : Prop where
  lt : c.pos < d.pos
  le : d.pos ≤ ls.items.length
  depth_eq : d.depth = c.depth

/-- From a cursor on, a machine comes to its end, and moves the cursor on if it succeeds. -/
structure MovesOn (ls : Lexemes) (m : Machine α) (c : Cursor) : Prop where
  ends : (run m c).isSome
  moved : ∀ {a d}, run m c = some (.ok (a, d)) → Moved ls c d

/-- From a cursor on, a machine fails. -/
def Fails (m : Machine α) (c : Cursor) : Prop :=
  ∃ err, run m c = some (.error err)

theorem Fails.isSome {m : Machine α} (h : Fails m c) : (run m c).isSome := by
  obtain ⟨err, hrun⟩ := h
  rw [hrun]
  rfl

theorem Fails.movesOn {m : Machine α} (h : Fails m c) : MovesOn ls m c where
  ends := h.isSome
  moved hok := by
    obtain ⟨err, hrun⟩ := h
    rw [hrun] at hok
    cases hok

theorem Fails.bind {m : Machine α} (h : Fails m c) (k : α → Machine β) : Fails (m >>= k) c := by
  obtain ⟨err, hrun⟩ := h
  exact ⟨err, run_bind_error hrun k⟩

theorem fails_bind {m : Machine α} {k : α → Machine β} {d : Cursor} {a : α}
    (h : run m c = some (.ok (a, d))) (hk : Fails (k a) d) : Fails (m >>= k) c := by
  obtain ⟨err, hrun⟩ := hk
  exact ⟨err, (run_bind h k).trans hrun⟩

/-! ## Looking at the lexemes -/

theorem exists_run_entryAt (ls : Lexemes) (c : Cursor) (offset : Nat) :
    ∃ e, run (entryAt ls offset) c = some (.ok (e, c)) := by
  have hlength : ls.entries.length = ls.items.length + 1 := by simp [Lexemes.entries]
  have hlt : min (c.pos + offset) ls.items.length < ls.entries.length := by omega
  exact ⟨_, run_entryAt_of_getElem? (List.getElem?_eq_getElem hlt)⟩

/-- There is always a token to look at, or the end. -/
theorem exists_run_peek (ls : Lexemes) (c : Cursor) :
    ∃ k, run (peek ls) c = some (.ok (k, c)) := by
  obtain ⟨e, he⟩ := exists_run_entryAt ls c 0
  exact ⟨e.2, run_bind he _⟩

theorem fails_fail (ls : Lexemes) (c : Cursor) (fault : Fault) :
    Fails (fail (α := α) ls fault) c := by
  obtain ⟨e, he⟩ := exists_run_entryAt ls c 0
  have hline : run (line ls) c = some (.ok (e.1, c)) := run_bind he _
  exact ⟨_, run_bind hline _⟩

/-- Where no level is left, none is entered. -/
theorem fails_enter (ls : Lexemes) (h : maxDepth ≤ c.depth) : Fails (enter ls) c := by
  refine fails_bind (a := ()) (d := { c with depth := c.depth + 1 }) rfl ?_
  show Fails (if maxDepth < c.depth + 1 then fail ls .tooDeep else pure ()) _
  rw [if_pos (Nat.lt_succ_of_le h)]
  exact fails_fail ls _ .tooDeep

/-! ## At the end -/

section AtEnd

variable (h : ls.items.length ≤ c.pos)

include h

/-- At the end, and behind it, the cursor is held at the end. -/
theorem run_entryAt_end (offset : Nat) :
    run (entryAt ls offset) c = some (.ok ((ls.endLine, none), c)) := by
  refine run_entryAt_of_getElem? ?_
  rw [Nat.min_eq_right (by omega)]
  simp [Lexemes.entries]

theorem run_peek_end : run (peek ls) c = some (.ok (none, c)) :=
  run_bind (run_entryAt_end h 0) _

theorem run_peekBehind_end : run (peekBehind ls) c = some (.ok (none, c)) :=
  run_bind (run_entryAt_end h 1) _

theorem run_line_end : run (line ls) c = some (.ok (ls.endLine, c)) :=
  run_bind (run_entryAt_end h 0) _

theorem run_advance_end : run (advance ls) c = some (.ok (none, c)) := by
  rw [run_advance_of_peek (run_peek_end h), if_neg (Nat.not_lt.2 h)]

theorem fails_atom : Fails ls.atom c := by
  rw [Lexemes.atom]
  exact fails_bind (run_advance_end h) (fails_fail ls c _)

theorem fails_call : Fails ls.call c := by
  rw [Lexemes.call]
  exact fails_bind (run_peek_end h) (fails_bind (run_peekBehind_end h) (fails_atom h))

theorem fails_power : Fails ls.power c := by
  rw [Lexemes.power]
  exact (fails_call h).bind _

theorem fails_signed : Fails ls.signed c := by
  rw [Lexemes.signed]
  exact fails_bind (run_peek_end h) (fails_power h)

theorem fails_product : Fails (ls.chain .product) c := by
  rw [Lexemes.chain, Lexemes.operand]
  exact (fails_signed h).bind _

theorem fails_sum : Fails (ls.chain .sum) c := by
  rw [Lexemes.chain, Lexemes.operand]
  exact (fails_product h).bind _

theorem fails_comparison : Fails ls.comparison c := by
  rw [Lexemes.comparison]
  exact (fails_sum h).bind _

theorem fails_negation : Fails ls.negation c := by
  rw [Lexemes.negation]
  exact fails_bind (run_peek_end h) (fails_comparison h)

theorem fails_both : Fails (ls.chain .both) c := by
  rw [Lexemes.chain, Lexemes.operand]
  exact (fails_negation h).bind _

theorem fails_either : Fails (ls.chain .either) c := by
  rw [Lexemes.chain, Lexemes.operand]
  exact (fails_both h).bind _

theorem fails_expression : Fails ls.expression c := by
  rw [Lexemes.expression]
  rcases Nat.lt_or_ge c.depth maxDepth with hdepth | hdepth
  · exact fails_bind (run_enter ls hdepth)
      ((fails_either (c := { c with depth := c.depth + 1 }) h).bind _)
  · exact (fails_enter ls hdepth).bind _

theorem fails_statement : Fails ls.statement c := by
  rw [Lexemes.statement]
  exact fails_bind (run_line_end h) (fails_bind (run_peek_end h)
    (fails_bind (run_peekBehind_end h) ((fails_expression h).bind _)))

end AtEnd

/-! ## Before the end -/

/-- A cursor that is not behind the end stands before some of the lexemes. -/
theorem exists_cursor (h : c.pos ≤ ls.items.length) :
    ∃ ts, ts <:+ ls.items ∧ c = cursor ls ts c.depth := by
  refine ⟨ls.items.drop c.pos, List.drop_suffix _ _, ?_⟩
  rw [cursor, List.length_drop, Nat.sub_sub_self h]

/-- The cursor moves on over the lexemes that are taken. -/
theorem moved_of_after {ts rest : List Lexeme} (hts : ts <:+ ls.items) (hrest : After rest ts)
    (depth : Nat) : Moved ls (cursor ls ts depth) (cursor ls rest depth) where
  lt := by
    have hle := hts.length_le
    have hlt := hrest.2
    show ls.items.length - ts.length < ls.items.length - rest.length
    omega
  le := Nat.sub_le _ _
  depth_eq := rfl

/-- The cursor moves on over a token. -/
theorem exists_run_advance {k : Token} (h : run (peek ls) c = some (.ok (some k, c))) :
    ∃ d, run (advance ls) c = some (.ok (some k, d)) ∧ Moved ls c d := by
  have hpos : c.pos < ls.items.length := by
    refine Nat.lt_of_not_le fun hend => ?_
    have hnone := (run_peek_end hend).symm.trans h
    cases hnone
  refine ⟨{ c with pos := c.pos + 1 }, ?_, Nat.lt_succ_self _, hpos, rfl⟩
  rw [run_advance_of_peek h, if_pos hpos]

/-- A machine moves on if it reads what a reader of the grammar reads, that takes lexemes, and fails
at the end. -/
theorem movesOn_of_reads {m : Machine α} {read : Option Readers → List Lexeme → Reading α}
    (htakes : ∀ {inner}, (∀ r, inner = some r → r.Take) → Takes (read inner))
    (hreads : ∀ {depth inner} (_ : LevelsFollow ls depth inner) {ts} (_ : ts <:+ ls.items),
      run m (cursor ls ts depth) = some (ended ls depth (read inner ts)))
    (hend : ∀ {c : Cursor}, ls.items.length ≤ c.pos → Fails m c)
    (hdepth : c.depth ≤ maxDepth) : MovesOn ls m c := by
  rcases Nat.le_total ls.items.length c.pos with hpos | hpos
  · exact (hend hpos).movesOn
  · have levels := levelsFollow ls (Nat.add_sub_cancel' hdepth)
    obtain ⟨ts, hts, hc⟩ := exists_cursor hpos
    rw [hc]
    have hrun := hreads levels hts
    cases hread : read (readers ls.endLine (maxDepth - c.depth)) ts with
    | error err =>
      rw [hread] at hrun
      exact Fails.movesOn ⟨err, hrun⟩
    | ok p =>
      obtain ⟨a, rest⟩ := p
      rw [hread] at hrun
      refine ⟨by rw [hrun]; rfl, fun {a' d} hok => ?_⟩
      obtain ⟨-, rfl⟩ := Prod.mk.inj (Except.ok.inj (Option.some.inj (hrun.symm.trans hok)))
      exact moved_of_after hts (htakes levels.take _ _ _ hread) c.depth

end Machine

namespace Lexemes

open Machine

variable {ls : Lexemes}

/-- The readers of expressions, from the loosest to the tightest. -/
def expressionReaders (ls : Lexemes) : List (Machine Expr) :=
  [ls.expression, ls.chain .either, ls.chain .both, ls.negation, ls.comparison, ls.chain .sum,
    ls.chain .product, ls.signed, ls.power, ls.call, ls.atom]

theorem movesOn_of_mem {m : Machine Expr} (hm : m ∈ ls.expressionReaders) {c : Cursor}
    (hdepth : c.depth ≤ maxDepth) : MovesOn ls m c := by
  simp only [expressionReaders, List.mem_cons, List.not_mem_nil, or_false] at hm
  rcases hm with rfl | rfl | rfl | rfl | rfl | rfl | rfl | rfl | rfl | rfl | rfl
  · exact movesOn_of_reads takes_readExpr run_expression fails_expression hdepth
  · exact movesOn_of_reads takes_readEither run_either fails_either hdepth
  · exact movesOn_of_reads takes_readBoth run_both fails_both hdepth
  · exact movesOn_of_reads takes_readNegation run_negation fails_negation hdepth
  · exact movesOn_of_reads takes_readComparison run_comparison fails_comparison hdepth
  · exact movesOn_of_reads takes_readSum run_sum fails_sum hdepth
  · exact movesOn_of_reads takes_readProduct run_product fails_product hdepth
  · exact movesOn_of_reads takes_readSigned run_signed fails_signed hdepth
  · exact movesOn_of_reads takes_readPower run_power fails_power hdepth
  · exact movesOn_of_reads takes_readCall run_call fails_call hdepth
  · exact movesOn_of_reads takes_readAtom run_atom fails_atom hdepth

theorem movesOn_statement (ls : Lexemes) {c : Cursor} (hdepth : c.depth ≤ maxDepth) :
    MovesOn ls ls.statement c :=
  movesOn_of_reads takes_readStatement run_statement fails_statement hdepth

/-! ## The loop over statements -/

/-- What the loop looks for behind a statement: a separator, or the end. -/
def EndsTurn (k : Option Token) : Prop :=
  k = none ∨ k = some .separator

/-- A turn of the loop over statements, from the statements that have been read and the cursor to
those behind it: a separator is skipped, or a statement is read up to its end. -/
inductive Turn (ls : Lexemes) : Program × Cursor → Program × Cursor → Prop where
  | separator {ss c d k} :
      run (peek ls) c = some (.ok (some .separator, c)) →
      run (advance ls) c = some (.ok (k, d)) →
      Turn ls (ss, c) (ss, d)
  | statement {ss c d s k k'} :
      run (peek ls) c = some (.ok (some k, c)) → k ≠ .separator →
      run ls.statement c = some (.ok (s, d)) →
      run (peek ls) d = some (.ok (k', d)) → EndsTurn k' →
      Turn ls (ss, c) (ss ++ [s], d)

variable {ss ss' : Program} {c d : Cursor}

/-- The loop goes on where a turn ends. -/
theorem Turn.run_program (h : Turn ls (ss, c) (ss', d)) :
    run (ls.program ss) c = run (ls.program ss') d := by
  cases h with
  | separator hpeek hadvance =>
    conv_lhs => rw [program]
    exact (run_bind hpeek _).trans (run_bind hadvance _)
  | statement hpeek hk hs hpeek' hend =>
    rw [run_program_statement hpeek hk]
    refine (run_bind hs _).trans ((run_bind hpeek' _).trans ?_)
    rcases hend with rfl | rfl <;> rfl

/-- A turn moves the cursor on. -/
theorem Turn.moved (h : Turn ls (ss, c) (ss', d)) (hdepth : c.depth ≤ maxDepth) :
    Moved ls c d := by
  cases h with
  | separator hpeek hadvance =>
    obtain ⟨d', hadvance', hmoved⟩ := exists_run_advance hpeek
    obtain ⟨-, rfl⟩ :=
      Prod.mk.inj (Except.ok.inj (Option.some.inj (hadvance'.symm.trans hadvance)))
    exact hmoved
  | statement _ _ hs _ _ => exact (movesOn_statement ls hdepth).moved hs

/-- The loop makes another turn, or comes to its end. -/
theorem exists_turn_or_isSome (ls : Lexemes) (ss : Program) (hdepth : c.depth ≤ maxDepth) :
    (∃ ss' d, Turn ls (ss, c) (ss', d)) ∨ (run (ls.program ss) c).isSome := by
  obtain ⟨k, hpeek⟩ := exists_run_peek ls c
  cases k with
  | none =>
    have hrun : run (ls.program ss) c = some (.ok (ss, c)) := by
      rw [program]
      exact run_bind hpeek _
    exact .inr (by rw [hrun]; rfl)
  | some k =>
    by_cases hk : k = .separator
    · obtain ⟨d, hadvance, -⟩ := exists_run_advance hpeek
      exact .inl ⟨_, _, .separator (hk ▸ hpeek) hadvance⟩
    · rw [run_program_statement hpeek hk]
      obtain ⟨r, hr⟩ := Option.isSome_iff_exists.1 (movesOn_statement ls hdepth).ends
      cases r with
      | error err => exact .inr (by rw [run_bind_error hr]; rfl)
      | ok p =>
        obtain ⟨s, d⟩ := p
        obtain ⟨k', hpeek'⟩ := exists_run_peek ls d
        by_cases hend : EndsTurn k'
        · exact .inl ⟨_, _, .statement hpeek hk hr hpeek' hend⟩
        · refine .inr ?_
          rw [run_bind hr, run_bind hpeek']
          split
          · exact absurd (.inr rfl) hend
          · exact absurd (.inl rfl) hend
          · exact (fails_fail ls d _).isSome

/-- The loop comes to its end: no turn leads behind the end, and each leads further on. -/
theorem isSome_run_program (ss : Program) (hdepth : c.depth ≤ maxDepth) :
    (run (ls.program ss) c).isSome := by
  induction hleft : ls.items.length - c.pos using Nat.strong_induction_on generalizing ss c with
  | _ left ih =>
    rcases exists_turn_or_isSome ls ss hdepth with ⟨ss', d, hturn⟩ | hend
    · obtain ⟨hlt, hle, hsame⟩ := hturn.moved hdepth
      rw [hturn.run_program]
      exact ih _ (by omega) ss' (hsame ▸ hdepth) rfl
    · exact hend

/-- All turns of the loop start outside of all levels, and the loop goes on from there. -/
theorem of_turns {σ : Program × Cursor} (h : ReflTransGen ls.Turn ([], ⟨0, 0⟩) σ) :
    σ.2.depth = 0 ∧ σ.2.pos ≤ ls.items.length ∧
      run (ls.program []) ⟨0, 0⟩ = run (ls.program σ.1) σ.2 := by
  induction h with
  | refl => exact ⟨rfl, Nat.zero_le _, rfl⟩
  | tail _ hturn ih =>
    obtain ⟨hdepth, -, hrun⟩ := ih
    obtain ⟨-, hle, hsame⟩ := hturn.moved (hdepth ▸ Nat.zero_le _)
    exact ⟨hsame.trans hdepth, hle, hrun.trans hturn.run_program⟩

/-- The readers of expressions move the cursor on, from wherever it stands and in as many levels as
there may be, and so does the reader of statements. So the loop over statements comes to its end,
and each of its turns starts outside of all levels; what it reads is what the grammar's readers
read. -/
theorem readers_moveOn (ls : Lexemes) :
    (∀ m ∈ ls.expressionReaders, ∀ c : Cursor, c.depth ≤ maxDepth → MovesOn ls m c) ∧
    (∀ pos, MovesOn ls ls.statement ⟨pos, 0⟩) ∧
    (∀ ss c, ReflTransGen ls.Turn ([], ⟨0, 0⟩) (ss, c) →
      c.depth = 0 ∧ c.pos ≤ ls.items.length ∧
        run (ls.program []) ⟨0, 0⟩ = run (ls.program ss) c) ∧
    (∀ ss pos, (run (ls.program ss) ⟨pos, 0⟩).isSome) ∧
    Program.ofLexemes? ls = some (readProgram ls.endLine ls.items) :=
  ⟨fun _ hm _ hdepth => movesOn_of_mem hm hdepth, fun _ => movesOn_statement ls (Nat.zero_le _),
    fun _ _ h => of_turns h, fun ss _ => isSome_run_program ss (Nat.zero_le _),
    Program.ofLexemes?_eq ls⟩

/-- A separator, and a number in parentheses behind a minus sign. -/
def signedRow : Lexemes :=
  ⟨[⟨1, .separator⟩, ⟨1, .arith .sub⟩, ⟨1, .openParen⟩, ⟨1, .int 2⟩, ⟨1, .closeParen⟩], 1⟩

/-- The sign is read in as many levels as leave room for the parentheses, and the separator is a
turn of the loop. -/
theorem readers_moveOn_of_signedRow :
    signedRow.signed ∈ signedRow.expressionReaders ∧ 254 ≤ maxDepth ∧
    MovesOn signedRow signedRow.signed ⟨1, 254⟩ ∧
    run signedRow.signed ⟨1, 254⟩ =
      some (.ok (.sign .minus (.literal (.int 2)), ⟨5, 254⟩)) ∧
    ReflTransGen signedRow.Turn ([], ⟨0, 0⟩) ([], ⟨1, 0⟩) ∧
    run (signedRow.program []) ⟨0, 0⟩ = run (signedRow.program []) ⟨1, 0⟩ := by
  obtain ⟨hreaders, -, hturns, -⟩ := readers_moveOn signedRow
  have hmem : signedRow.signed ∈ signedRow.expressionReaders := by simp [expressionReaders]
  have hdepth : 254 ≤ maxDepth := by decide
  have hlevels : LevelsFollow signedRow 254 (readers 1 2) := levelsFollow signedRow rfl
  have hrun : run signedRow.signed ⟨1, 254⟩ =
      some (.ok (.sign .minus (.literal (.int 2)), ⟨5, 254⟩)) :=
    run_signed hlevels (List.suffix_cons _ _)
  have hturn : signedRow.Turn ([], ⟨0, 0⟩) ([], ⟨1, 0⟩) := .separator rfl rfl
  obtain ⟨-, -, hprogram⟩ := hturns _ _ (.single hturn)
  exact ⟨hmem, hdepth, hreaders _ hmem _ hdepth, hrun, .single hturn, hprogram⟩

end Lexemes

end CalcDoc.Script
