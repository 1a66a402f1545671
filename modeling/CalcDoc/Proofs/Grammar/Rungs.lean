import CalcDoc.Proofs.Grammar.Soundness

/-!
# From tight rungs to loose ones

A reader of a rung reads what the reader of the next tighter rung reads, if nothing follows that
the expression could go on with.

- `Rung.read`: the reader of each rung.
- `Ends`: no expression of a rung goes on with the next lexeme.
- `read_tighter`, `read_looser`: what a tighter reader reads is read by a looser one.
- `read_chain`: a chain is read as its first operand and the rest.
-/

namespace CalcDoc.Script

/-- The place of a rung, counted from the loosest. -/
def Rung.tightness : Rung → Nat
  | .either => 0
  | .both => 1
  | .negation => 2
  | .comparison => 3
  | .sum => 4
  | .product => 5
  | .signed => 6
  | .power => 7
  | .primary => 8

theorem tightness_of_tighter? {r s : Rung} (h : r.tighter? = some s) :
    s.tightness = r.tightness + 1 := by
  cases r <;> cases h <;> rfl

/-- The rung of the expressions that a token continues, if it continues any. -/
def Token.rung? : Token → Option Rung
  | .or => some .either
  | .and => some .both
  | .compare _ => some .comparison
  | .arith .add | .arith .sub => some .sum
  | .arith .mul | .arith .div | .arith .floorDiv | .arith .mod => some .product
  | .arith .pow => some .power
  | .openParen => some .primary
  | _ => none

/-- No expression of the rung, or of a tighter one, goes on with the next lexeme. -/
def Ends (r : Rung) (rest : List Lexeme) : Prop :=
  ∀ k, nextToken? rest = some k → ∀ s, k.rung? = some s → s.tightness < r.tightness

theorem Ends.mono {r s : Rung} {rest : List Lexeme} (h : Ends r rest)
    (hrs : r.tightness ≤ s.tightness) : Ends s rest :=
  fun k hk t ht => Nat.lt_of_lt_of_le (h k hk t ht) hrs

theorem Ends.tighter {r s : Rung} {rest : List Lexeme} (h : Ends r rest)
    (hrs : r.tighter? = some s) : Ends s rest :=
  h.mono (by rw [tightness_of_tighter? hrs]; exact Nat.le_succ _)

theorem ends_nil (r : Rung) : Ends r [] := by
  intro k hk
  cases hk

theorem ends_cons {r : Rung} {l : Lexeme} {rest : List Lexeme}
    (h : ∀ s, l.token.rung? = some s → s.tightness < r.tightness) : Ends r (l :: rest) := by
  intro k hk
  obtain rfl := Option.some.inj hk
  exact h

/-- A token that continues nothing ends everything. -/
theorem ends_of_rung? {r : Rung} {l : Lexeme} {rest : List Lexeme} (h : l.token.rung? = none) :
    Ends r (l :: rest) :=
  ends_cons fun s hs => by rw [h] at hs; cases hs

/-- No token continues an expression with a sign as such; so what ends a power ends it. -/
theorem ends_signed {rest : List Lexeme} (h : Ends .power rest) : Ends .signed rest := by
  intro k hk s hs
  have hlt := h k hk s hs
  have hne : s ≠ .signed := by
    rintro rfl
    unfold Token.rung? at hs
    split at hs <;> cases hs
  cases s <;> simp_all [Rung.tightness]

theorem rung?_of_join? {c : Chain} {k : Token} {join : Expr → Expr → Expr}
    (h : c.join? k = some join) : k.rung? = some c.rung := by
  unfold Chain.join? at h
  split at h <;> first | rfl | cases h

theorem next?_eq_none {α : Type} {meaning : Token → Option α} {ts : List Lexeme}
    (h : ∀ k, nextToken? ts = some k → meaning k = none) : next? meaning ts = none := by
  cases ts with
  | nil => rfl
  | cons l ts => simp [next?, h l.token rfl]

theorem next?_cons {α : Type} {meaning : Token → Option α} {l : Lexeme} {a : α}
    (ts : List Lexeme) (h : meaning l.token = some a) : next? meaning (l :: ts) = some (a, ts) := by
  simp [next?, h]

/-- The reader of a rung. -/
def Rung.read (endLine : Nat) (inner : Option Readers) : Rung → List Lexeme → Reading Expr
  | .either => readEither endLine inner
  | .both => readBoth endLine inner
  | .negation => readNegation endLine inner
  | .comparison => readComparison endLine inner
  | .sum => readSum endLine inner
  | .product => readProduct endLine inner
  | .signed => readSigned endLine inner
  | .power => readPower endLine inner
  | .primary => readCall endLine inner

theorem Readers.chain_around (endLine : Nat) (inner : Option Readers) (c : Chain) :
    (Readers.around endLine inner).chain c = c.rung.read endLine inner := by
  cases c <;> rfl

theorem Readers.operand_around (endLine : Nat) (inner : Option Readers) (c : Chain) :
    (Readers.around endLine inner).operand c = c.operandRung.read endLine inner := by
  cases c <;> rfl

section Levels

variable {endLine : Nat} {inner : Option Readers} {ts rest : List Lexeme} {e : Expr}

/-- A chain is its first operand and the rest. -/
theorem read_chain (c : Chain) {mid : List Lexeme} {a : Expr}
    (h : c.operandRung.read endLine inner ts = .ok (a, mid)) :
    c.rung.read endLine inner ts = readMore endLine inner c a mid := by
  cases c with
  | either => rw [Chain.rung, Rung.read, readEither, show readBoth endLine inner ts = _ from h]
  | both => rw [Chain.rung, Rung.read, readBoth, show readNegation endLine inner ts = _ from h]
  | sum => rw [Chain.rung, Rung.read, readSum, show readProduct endLine inner ts = _ from h]
  | product => rw [Chain.rung, Rung.read, readProduct, show readSigned endLine inner ts = _ from h]

/-- A chain without a first operand is none. -/
theorem read_chain_error (c : Chain) {err : Error}
    (h : c.operandRung.read endLine inner ts = .error err) :
    c.rung.read endLine inner ts = .error err := by
  cases c with
  | either => rw [Chain.rung, Rung.read, readEither, show readBoth endLine inner ts = _ from h]
  | both => rw [Chain.rung, Rung.read, readBoth, show readNegation endLine inner ts = _ from h]
  | sum => rw [Chain.rung, Rung.read, readSum, show readProduct endLine inner ts = _ from h]
  | product => rw [Chain.rung, Rung.read, readProduct, show readSigned endLine inner ts = _ from h]

theorem readMore_of_ends (c : Chain) (left : Expr) (hend : Ends c.rung rest) :
    readMore endLine inner c left rest = .ok (left, rest) := by
  have hnone : next? c.join? rest = none := by
    refine next?_eq_none fun k hk => ?_
    cases hj : c.join? k with
    | none => rfl
    | some join => exact absurd (hend k hk _ (rung?_of_join? hj)) (Nat.lt_irrefl _)
  rw [readMore, hnone]

/-- One more operand of a chain is read one level further in, and the rest of the chain too. -/
theorem readMore_join {c : Chain} {levels : Nat} {l : Lexeme} {mid : List Lexeme} {a b : Expr}
    {join : Expr → Expr → Expr} (hl : c.join? l.token = some join)
    (hb : c.operandRung.read endLine (readers endLine levels) ts = .ok (b, mid)) :
    readMore endLine (readers endLine (levels + 1)) c a (l :: ts) =
      readMore endLine (readers endLine levels) c (join a b) mid := by
  rw [readMore, next?_cons ts hl]
  simp only [readers, descend, Readers.operand_around, hb]
  rfl

/-- An argument that no comma follows is the last one. -/
theorem readArguments_last {count : Nat} (h : readExpr endLine inner ts = .ok (e, rest))
    (hrest : nextToken? rest ≠ some .comma) :
    readArguments endLine inner (count + 1) ts = .ok ([e], rest) := by
  rw [readArguments, h]
  split
  · next hx => cases hx
  · next hx =>
    cases hx
    exact absurd rfl hrest
  · next hx =>
    cases hx
    exact absurd rfl hrest
  · next hx =>
    cases hx
    rfl

/-- Without a name and an opening parenthesis there is no call. -/
theorem readCall_atom (hts : ¬ ∃ n f m us, ts = ⟨n, .name f⟩ :: ⟨m, .openParen⟩ :: us) :
    readCall endLine inner ts = readAtom endLine inner ts := by
  rw [readCall]
  · rintro n f m p us rfl
    exact hts ⟨_, _, _, _, rfl⟩
  · rintro n f m us rfl
    exact hts ⟨_, _, _, _, rfl⟩

/-- A token with a value is read as that value. -/
theorem readCall_literal {n : Nat} {k : Token} {v : Value} (hk : k.literal? = some v) :
    readCall endLine inner (⟨n, k⟩ :: rest) = .ok (.literal v, rest) := by
  rw [readCall_atom]
  · rw [readAtom]
    simp only [hk]
  · rintro ⟨m, f, i, us, hcall⟩
    obtain ⟨hname, -⟩ := List.cons.inj hcall
    obtain ⟨-, rfl⟩ := Lexeme.mk.inj hname
    cases hk

/-- A name that no parenthesis follows is no call. -/
theorem readCall_name {n : Nat} {x : String} (hend : Ends .primary rest) :
    readCall endLine inner (⟨n, .name x⟩ :: rest) = .ok (.name x, rest) := by
  rw [readCall_atom]
  · rfl
  · rintro ⟨m, f, i, us, hcall⟩
    obtain ⟨-, rfl⟩ := List.cons.inj hcall
    exact absurd (hend _ rfl .primary rfl) (Nat.lt_irrefl _)

/-- An expression in parentheses. -/
theorem readCall_paren {n m : Nat}
    (h : readExpr endLine inner ts = .ok (e, ⟨m, .closeParen⟩ :: rest)) :
    readCall endLine inner (⟨n, .openParen⟩ :: ts) = .ok (e, rest) := by
  simp [readCall, readAtom, Token.literal?, h, readClose]

/-- A call whose parentheses are not empty. -/
theorem readCall_of_readArguments {f : String} {n m i : Nat} {args : List Expr}
    (hts : nextToken? ts ≠ some .closeParen)
    (h : readArguments endLine inner (ts.length + 1) ts = .ok (args, ⟨i, .closeParen⟩ :: rest)) :
    readCall endLine inner (⟨n, .name f⟩ :: ⟨m, .openParen⟩ :: ts) = .ok (.call f args, rest) := by
  rw [readCall]
  · rw [h]
    rfl
  · rintro p us rfl
    exact hts rfl

/-- What no power sign follows is no base. -/
theorem readPower_of_ne (h : readCall endLine inner ts = .ok (e, rest))
    (hrest : nextToken? rest ≠ some (.arith .pow)) :
    readPower endLine inner ts = .ok (e, rest) := by
  rw [readPower, h]
  split
  · next hx => cases hx
  · next hx =>
    cases hx
    exact absurd rfl hrest
  · next hx => rw [hx]

theorem readPower_of_readCall (h : readCall endLine inner ts = .ok (e, rest))
    (hend : Ends .power rest) : readPower endLine inner ts = .ok (e, rest) :=
  readPower_of_ne h fun hpow => absurd (hend _ hpow .power rfl) (Nat.lt_irrefl _)

/-- The exponent is read one level further in. -/
theorem readPower_of_pow {n levels : Nat} {mid : List Lexeme} {a b : Expr}
    (ha : readCall endLine (readers endLine (levels + 1)) ts = .ok (a, ⟨n, .arith .pow⟩ :: mid))
    (hb : readSigned endLine (readers endLine levels) mid = .ok (b, rest)) :
    readPower endLine (readers endLine (levels + 1)) ts = .ok (.arith .pow a b, rest) := by
  rw [readPower, ha]
  simp [readers, descend, Readers.around, hb]

/-- The operand of a sign is read one level further in. -/
theorem readSigned_sign {n levels : Nat} {op : SignOp}
    (h : readSigned endLine (readers endLine levels) ts = .ok (e, rest)) :
    readSigned endLine (readers endLine (levels + 1)) (⟨n, .arith op.written⟩ :: ts) =
      .ok (.sign op e, rest) := by
  have hsign : (Token.arith op.written).sign? = some op := by cases op <;> rfl
  rw [readSigned, next?_cons _ hsign]
  simp only [readers, descend, Readers.around, h]

/-- No power begins with a sign, so the readers of signs leave powers alone. -/
theorem readSigned_of_readPower (h : readPower endLine inner ts = .ok (e, rest)) :
    readSigned endLine inner ts = .ok (e, rest) := by
  have hnone : next? Token.sign? ts = none := by
    refine next?_eq_none fun k hk => ?_
    cases hs : k.sign? with
    | none => rfl
    | some op =>
      -- no atom begins with a sign, so the power would not have been read
      obtain rfl := token_of_sign? hs
      cases ts with
      | nil => cases hk
      | cons l ts =>
        obtain ⟨n, k⟩ := l
        obtain rfl : k = _ := Option.some.inj hk
        simp [readPower, readCall, readAtom, Token.literal?, failAt] at h
  rw [readSigned, hnone]
  exact h

theorem next?_compare_eq_none (hend : Ends .comparison rest) :
    next? Token.compare? rest = none := by
  refine next?_eq_none fun k hk => ?_
  cases hc : k.compare? with
  | none => rfl
  | some op =>
    obtain rfl := token_of_compare? hc
    exact absurd (hend _ hk .comparison rfl) (Nat.lt_irrefl _)

theorem readComparison_of_readSum (h : readSum endLine inner ts = .ok (e, rest))
    (hend : Ends .comparison rest) : readComparison endLine inner ts = .ok (e, rest) := by
  rw [readComparison, h]
  simp [next?_compare_eq_none hend]

/-- No phrase begins with a closing parenthesis. -/
theorem Derives.nextToken?_ne_closeParen {φ : Phrase} {ls : List Lexeme}
    (h : Derives φ (tokens ls)) (rest : List Lexeme) :
    nextToken? (ls ++ rest) ≠ some .closeParen := by
  have hhead := h.head?_ne_closeParen
  cases ls with
  | nil => exact absurd rfl h.ne_nil
  | cons l ls => exact hhead

theorem nextToken?_of_readExpr {levels : Nat}
    (h : readExpr endLine (readers endLine levels) ts = .ok (e, rest)) :
    nextToken? ts ≠ some .closeParen := by
  obtain ⟨us, rfl, hd⟩ := sound_readExpr (readers_sound endLine levels) _ _ _ h
  exact hd.nextToken?_ne_closeParen rest

/-- A comparison is two sums and a comparing token between them. -/
theorem readComparison_of_readSums {l : Lexeme} {mid : List Lexeme} {op : CompareOp} {a b : Expr}
    (ha : readSum endLine inner ts = .ok (a, l :: mid)) (hop : l.token.compare? = some op)
    (hb : readSum endLine inner mid = .ok (b, rest)) (hend : Ends .comparison rest) :
    readComparison endLine inner ts = .ok (.compare op a b, rest) := by
  rw [readComparison, ha]
  simp [next?_cons _ hop, hb, next?_compare_eq_none hend]

/-- The operand of `not` is read one level further in. -/
theorem readNegation_not {n levels : Nat}
    (h : readNegation endLine (readers endLine levels) ts = .ok (e, rest)) :
    readNegation endLine (readers endLine (levels + 1)) (⟨n, .not⟩ :: ts) =
      .ok (.not e, rest) := by
  rw [readNegation]
  simp only [readers, descend, Readers.around, h]

/-- No comparison begins with `not`. -/
theorem readNegation_of_readComparison (h : readComparison endLine inner ts = .ok (e, rest)) :
    readNegation endLine inner ts = .ok (e, rest) := by
  unfold readNegation
  split
  · next n ts' =>
    simp [readComparison, readSum, readProduct, readSigned, next?, Token.sign?, readPower,
      readCall, readAtom, Token.literal?, failAt] at h
  · exact h

/-- What the reader of the next tighter rung reads is read by the reader of a rung. -/
theorem read_tighter {r s : Rung} (hrs : r.tighter? = some s)
    (h : s.read endLine inner ts = .ok (e, rest)) (hend : Ends r rest) :
    r.read endLine inner ts = .ok (e, rest) := by
  -- four of the rungs are chains of one operand
  have chain (c : Chain) (h : c.operandRung.read endLine inner ts = .ok (e, rest))
      (hend : Ends c.rung rest) : c.rung.read endLine inner ts = .ok (e, rest) := by
    rw [read_chain c h, readMore_of_ends c e hend]
  cases r <;> cases hrs
  case either => exact chain .either h hend
  case both => exact chain .both h hend
  case negation => exact readNegation_of_readComparison h
  case comparison => exact readComparison_of_readSum h hend
  case sum => exact chain .sum h hend
  case product => exact chain .product h hend
  case signed => exact readSigned_of_readPower h
  case power => exact readPower_of_readCall h hend

/-- What the reader of a rung reads is read by the readers of all looser rungs. -/
theorem read_looser {r s : Rung} (h : s.read endLine inner ts = .ok (e, rest))
    (hrs : r.tightness ≤ s.tightness) (hend : Ends r rest) :
    r.read endLine inner ts = .ok (e, rest) := by
  by_cases heq : r.tightness = s.tightness
  · obtain rfl : r = s := by
      cases r <;> cases s <;> first | rfl | cases heq
    exact h
  · -- the next tighter rung first, and from it one rung up
    cases ht : r.tighter? with
    | none => cases r <;> cases s <;> simp_all [Rung.tightness, Rung.tighter?]
    | some t =>
      have hts : t.tightness ≤ s.tightness := by
        rw [tightness_of_tighter? ht]
        omega
      exact read_tighter ht (read_looser h hts (hend.tighter ht)) hend
termination_by s.tightness - r.tightness
decreasing_by
  rw [tightness_of_tighter? ht]
  omega

end Levels

end CalcDoc.Script
