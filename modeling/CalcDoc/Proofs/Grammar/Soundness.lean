import CalcDoc.Proofs.Grammar.Derivation
import CalcDoc.Script.Progress

/-!
# The readers stay within the grammar

What a reader returns is derived from the lexemes that it has taken.

- `Sound`: a reader of the expressions of a rung.
- `readers_sound`: the readers of every level, by induction on the levels.
- `sound_readExpr`, `derivesStatement_of_read`: so do expressions and statements.
-/

namespace CalcDoc.Script

/-- What is read is an expression of a rung, made of the lexemes that were taken. -/
def Sound (rung : Rung) (read : List Lexeme → Reading Expr) : Prop :=
  ∀ ts e rest, read ts = .ok (e, rest) →
    ∃ us, ts = us ++ rest ∧ Derives (.expr rung e) (tokens us)

/-- The rung of the expressions that a chain makes. -/
def Chain.rung : Chain → Rung
  | .either => .either
  | .both => .both
  | .sum => .sum
  | .product => .product

/-- The rung of the operands of a chain, but for the first. -/
def Chain.operandRung : Chain → Rung
  | .either => .both
  | .both => .negation
  | .sum => .product
  | .product => .signed

/-- What is read completes a chain that begins with `left`. -/
def SoundMore (chain : Chain) (left : Expr) (read : List Lexeme → Reading Expr) : Prop :=
  ∀ ts e rest, read ts = .ok (e, rest) →
    ∃ us, ts = us ++ rest ∧
      ∀ ls, Derives (.expr chain.rung left) ls →
        Derives (.expr chain.rung e) (ls ++ tokens us)

/-- The readers of a level read expressions of the rungs that they are for. -/
structure Readers.Sound (r : Readers) : Prop where
  chain : ∀ c, Script.Sound c.rung (r.chain c)
  more : ∀ c left, SoundMore c left (r.more c left)
  negation : Script.Sound .negation r.negation
  signed : Script.Sound .signed r.signed

theorem Readers.Sound.operand {r : Readers} (hr : r.Sound) :
    ∀ c : Chain, Script.Sound c.operandRung (r.operand c)
  | .either => hr.chain .both
  | .both => hr.negation
  | .sum => hr.chain .product
  | .product => hr.signed

/-! ## Single lexemes -/

theorem exists_of_next? {α : Type} {meaning : Token → Option α} {ts rest : List Lexeme} {a : α}
    (h : next? meaning ts = some (a, rest)) :
    ∃ l, ts = l :: rest ∧ meaning l.token = some a := by
  unfold next? at h
  split at h
  · cases h
  · next l ts =>
    split at h
    · next b hb =>
      obtain ⟨rfl, rfl⟩ := Prod.mk.inj (Option.some.inj h)
      exact ⟨l, rfl, hb⟩
    · cases h

theorem token_of_sign? {k : Token} {op : SignOp} (h : k.sign? = some op) :
    k = .arith op.written := by
  unfold Token.sign? at h
  split at h <;> cases h <;> rfl

theorem token_of_compare? {k : Token} {op : CompareOp} (h : k.compare? = some op) :
    k = .compare op := by
  unfold Token.compare? at h
  split at h <;> cases h
  rfl

/-- A token that joins two operands of a chain makes an expression of the chain. -/
theorem derives_join {c : Chain} {k : Token} {join : Expr → Expr → Expr} {a b : Expr}
    {ts us : List Token} (hk : c.join? k = some join) (ha : Derives (.expr c.rung a) ts)
    (hb : Derives (.expr c.operandRung b) us) :
    Derives (.expr c.rung (join a b)) (ts ++ k :: us) := by
  unfold Chain.join? at hk
  split at hk <;> cases hk
  · exact .or ha hb
  · exact .and ha hb
  all_goals first
    | exact .sum (by simp) ha hb
    | exact .product (by simp) ha hb

/-- Expressions of the rung of the operands are expressions of the chain. -/
theorem tighter?_rung (c : Chain) : c.rung.tighter? = some c.operandRung := by
  cases c <;> rfl

/-! ## The readers of a level -/

section Levels

variable {endLine : Nat} {inner : Option Readers} (take : ∀ r, inner = some r → r.Take)
  (sound : ∀ r, inner = some r → r.Sound)

theorem exists_of_readClose {α : Type} {a b : α} {ts rest : List Lexeme}
    (h : readClose endLine a ts = .ok (b, rest)) :
    a = b ∧ ∃ n, ts = ⟨n, .closeParen⟩ :: rest := by
  unfold readClose at h
  split at h
  · next n ts =>
    obtain ⟨rfl, rfl⟩ := Prod.mk.inj (Except.ok.inj h)
    exact ⟨rfl, n, rfl⟩
  · simp [failAt] at h

include sound

theorem sound_readExpr : Sound .either (readExpr endLine inner) := by
  intro ts e rest h
  obtain ⟨r, hr, h⟩ := exists_of_descend h
  exact (sound r hr).chain .either _ _ _ h

theorem sound_readAtom : Sound .primary (readAtom endLine inner) := by
  intro ts e rest h
  unfold readAtom at h
  split at h
  · simp [failAt] at h
  · next l ts =>
    split at h
    · next v hv =>
      obtain ⟨rfl, rfl⟩ := Prod.mk.inj (Except.ok.inj h)
      exact ⟨[l], rfl, .literal hv⟩
    · split at h
      · next x hx =>
        obtain ⟨rfl, rfl⟩ := Prod.mk.inj (Except.ok.inj h)
        exact ⟨[l], rfl, by simpa [hx] using Derives.name⟩
      · next hopen =>
        split at h
        · next e' ts' he =>
          obtain ⟨rfl, n, rfl⟩ := exists_of_readClose h
          obtain ⟨us, rfl, hd⟩ := sound_readExpr sound _ _ _ he
          refine ⟨l :: (us ++ [⟨n, .closeParen⟩]), by simp, ?_⟩
          simpa [hopen] using Derives.paren hd
        · cases h
      · simp [failAt] at h

include take

/-- The count of arguments never runs out, because each argument takes a lexeme. -/
theorem sound_readArguments (count : Nat) :
    ∀ ts es rest, ts.length < count → readArguments endLine inner count ts = .ok (es, rest) →
      ∃ us trail, ts = us ++ (trail ++ rest) ∧ (tokens trail = [] ∨ tokens trail = [.comma]) ∧
        Derives (.arguments es) (tokens us) := by
  induction count with
  | zero =>
    intro ts es rest hcount
    exact absurd hcount (Nat.not_lt_zero _)
  | succ count ih =>
    intro ts es rest hcount h
    unfold readArguments at h
    split at h
    · cases h
    · next e m n ts' he =>
      obtain ⟨rfl, rfl⟩ := Prod.mk.inj (Except.ok.inj h)
      obtain ⟨us, rfl, hd⟩ := sound_readExpr sound _ _ _ he
      exact ⟨us, [⟨m, .comma⟩], by simp, .inr rfl, .lastArgument hd⟩
    · next e m ts' _ he =>
      -- the argument took a lexeme, so the count covers the others
      have shorter := (takes_readExpr take _ _ _ he).2
      obtain ⟨us, rfl, hd⟩ := sound_readExpr sound _ _ _ he
      split at h
      · next es' ts'' hes =>
        obtain ⟨rfl, rfl⟩ := Prod.mk.inj (Except.ok.inj h)
        have hcount' : ts'.length < count := by
          simp only [List.length_append, List.length_cons] at hcount shorter
          omega
        obtain ⟨vs, trail, rfl, htrail, hds⟩ := ih _ _ _ hcount' hes
        refine ⟨us ++ ⟨m, .comma⟩ :: vs, trail, by simp, htrail, ?_⟩
        simpa using Derives.argument hd hds
      · cases h
    · next e ts' _ _ he =>
      obtain ⟨rfl, rfl⟩ := Prod.mk.inj (Except.ok.inj h)
      obtain ⟨us, rfl, hd⟩ := sound_readExpr sound _ _ _ he
      exact ⟨us, [], by simp, .inl rfl, .lastArgument hd⟩

theorem sound_readCall : Sound .primary (readCall endLine inner) := by
  intro ts e rest h
  unfold readCall at h
  split at h
  · next n f m k ts =>
    obtain ⟨rfl, rfl⟩ := Prod.mk.inj (Except.ok.inj h)
    exact ⟨[⟨n, .name f⟩, ⟨m, .openParen⟩, ⟨k, .closeParen⟩], rfl, .callEmpty⟩
  · next n f m ts _ =>
    split at h
    · next args ts' ha =>
      obtain ⟨rfl, k, rfl⟩ := exists_of_readClose h
      obtain ⟨us, trail, rfl, htrail, hd⟩ :=
        sound_readArguments take sound _ _ _ _ (Nat.lt_succ_self _) ha
      refine ⟨⟨n, .name f⟩ :: ⟨m, .openParen⟩ :: (us ++ (trail ++ [⟨k, .closeParen⟩])),
        by simp, ?_⟩
      simpa using Derives.call htrail hd
    · cases h
  · exact sound_readAtom sound _ _ _ h

theorem sound_readPower : Sound .power (readPower endLine inner) := by
  intro ts e rest h
  unfold readPower at h
  split at h
  · cases h
  · next base n ts' hb =>
    obtain ⟨us, rfl, hbase⟩ := sound_readCall take sound _ _ _ hb
    obtain ⟨r, hr, h⟩ := exists_of_descend h
    split at h
    · next exponent ts'' he =>
      obtain ⟨rfl, rfl⟩ := Prod.mk.inj (Except.ok.inj h)
      obtain ⟨vs, rfl, hexponent⟩ := (sound r hr).signed _ _ _ he
      refine ⟨us ++ ⟨n, .arith .pow⟩ :: vs, by simp, ?_⟩
      simpa using Derives.power hbase hexponent
    · cases h
  · next base ts' _ hb =>
    obtain ⟨rfl, rfl⟩ := Prod.mk.inj (Except.ok.inj h)
    obtain ⟨us, rfl, hbase⟩ := sound_readCall take sound _ _ _ hb
    exact ⟨us, rfl, .tighter rfl hbase⟩

theorem sound_readSigned : Sound .signed (readSigned endLine inner) := by
  intro ts e rest h
  unfold readSigned at h
  split at h
  · next op ts' hn =>
    obtain ⟨l, rfl, hop⟩ := exists_of_next? hn
    obtain ⟨r, hr, h⟩ := exists_of_descend h
    split at h
    · next e' ts'' he =>
      obtain ⟨rfl, rfl⟩ := Prod.mk.inj (Except.ok.inj h)
      obtain ⟨us, rfl, hd⟩ := (sound r hr).signed _ _ _ he
      refine ⟨l :: us, rfl, ?_⟩
      rw [tokens_cons, token_of_sign? hop]
      exact .sign hd
    · cases h
  · obtain ⟨us, rfl, hd⟩ := sound_readPower take sound _ _ _ h
    exact ⟨us, rfl, .tighter rfl hd⟩

omit take in
theorem sound_readMore (c : Chain) (left : Expr) :
    SoundMore c left (readMore endLine inner c left) := by
  intro ts e rest h
  unfold readMore at h
  split at h
  · obtain ⟨rfl, rfl⟩ := Prod.mk.inj (Except.ok.inj h)
    exact ⟨[], rfl, fun ls hl => by simpa using hl⟩
  · next join ts' hn =>
    obtain ⟨l, rfl, hjoin⟩ := exists_of_next? hn
    obtain ⟨r, hr, h⟩ := exists_of_descend h
    split at h
    · next right ts'' he =>
      obtain ⟨vs, rfl, hmore⟩ := (sound r hr).more c _ _ _ _ h
      obtain ⟨us, rfl, hright⟩ := (sound r hr).operand c _ _ _ he
      -- the chain grows at its left end, so it holds for every row of lexemes of `left`
      refine ⟨l :: (us ++ vs), by simp, fun ls hl => ?_⟩
      simpa using hmore _ (derives_join hjoin hl hright)
    · cases h

omit take in
/-- A chain is its first operand and the rest. -/
theorem sound_chain (c : Chain) {operand : List Lexeme → Reading Expr}
    (h : Sound c.operandRung operand) :
    Sound c.rung fun ts =>
      match operand ts with
      | .ok (e, ts) => readMore endLine inner c e ts
      | .error e => .error e := by
  intro ts e rest hread
  dsimp only at hread
  split at hread
  · next ha =>
    obtain ⟨us, rfl, hd⟩ := h _ _ _ ha
    obtain ⟨vs, rfl, hmore⟩ := sound_readMore sound c _ _ _ _ hread
    refine ⟨us ++ vs, by simp, ?_⟩
    simpa using hmore _ (.tighter (tighter?_rung c) hd)
  · cases hread

theorem sound_readProduct : Sound .product (readProduct endLine inner) :=
  sound_chain sound .product (sound_readSigned take sound)

theorem sound_readSum : Sound .sum (readSum endLine inner) :=
  sound_chain sound .sum (sound_readProduct take sound)

theorem sound_readComparison : Sound .comparison (readComparison endLine inner) := by
  intro ts e rest h
  unfold readComparison at h
  split at h
  · cases h
  · next left ts' hl =>
    obtain ⟨us, rfl, hleft⟩ := sound_readSum take sound _ _ _ hl
    split at h
    · obtain ⟨rfl, rfl⟩ := Prod.mk.inj (Except.ok.inj h)
      exact ⟨us, rfl, .tighter rfl hleft⟩
    · next op ts'' hn =>
      obtain ⟨l, rfl, hop⟩ := exists_of_next? hn
      split at h
      · cases h
      · next right ts''' hr =>
        split at h
        · obtain ⟨rfl, rfl⟩ := Prod.mk.inj (Except.ok.inj h)
          obtain ⟨vs, rfl, hright⟩ := sound_readSum take sound _ _ _ hr
          refine ⟨us ++ l :: vs, by simp, ?_⟩
          rw [tokens_append, tokens_cons, token_of_compare? hop]
          exact .compare hleft hright
        · simp [failAt] at h

theorem sound_readNegation : Sound .negation (readNegation endLine inner) := by
  intro ts e rest h
  unfold readNegation at h
  split at h
  · next n ts' =>
    obtain ⟨r, hr, h⟩ := exists_of_descend h
    split at h
    · next e' ts'' he =>
      obtain ⟨rfl, rfl⟩ := Prod.mk.inj (Except.ok.inj h)
      obtain ⟨us, rfl, hd⟩ := (sound r hr).negation _ _ _ he
      exact ⟨⟨n, .not⟩ :: us, rfl, .not hd⟩
    · cases h
  · obtain ⟨us, rfl, hd⟩ := sound_readComparison take sound _ _ _ h
    exact ⟨us, rfl, .tighter rfl hd⟩

theorem sound_readBoth : Sound .both (readBoth endLine inner) :=
  sound_chain sound .both (sound_readNegation take sound)

theorem sound_readEither : Sound .either (readEither endLine inner) :=
  sound_chain sound .either (sound_readBoth take sound)

theorem Readers.sound_around : (Readers.around endLine inner).Sound where
  chain
    | .either => sound_readEither take sound
    | .both => sound_readBoth take sound
    | .sum => sound_readSum take sound
    | .product => sound_readProduct take sound
  more := sound_readMore sound
  negation := sound_readNegation take sound
  signed := sound_readSigned take sound

end Levels

/-- The readers of every level read expressions of the rungs that they are for. -/
theorem readers_sound (endLine levels : Nat) : ∀ r, readers endLine levels = some r → r.Sound := by
  induction levels with
  | zero => simp [readers]
  | succ levels ih =>
    intro r h
    obtain rfl := Option.some.inj h
    exact Readers.sound_around (readers_take endLine levels) ih

/-- What the reader of statements returns is a statement, made of the lexemes that it takes. -/
theorem derivesStatement_of_read {endLine levels : Nat} {ts rest : List Lexeme} {s : Statement}
    (h : readStatement endLine (readers endLine levels) ts = .ok (s, rest)) :
    ∃ us, ts = us ++ rest ∧ DerivesStatement us s := by
  have sound : Sound .either (readExpr endLine (readers endLine levels)) :=
    sound_readExpr (readers_sound endLine levels)
  unfold readStatement at h
  dsimp only at h
  split at h
  · next n m x ts =>
    obtain ⟨rfl, rfl⟩ := Prod.mk.inj (Except.ok.inj h)
    exact ⟨[⟨n, .del⟩, ⟨m, .name x⟩], rfl, .delete⟩
  · simp [failAt] at h
  · next n x m ts =>
    split at h
    · next e ts' he =>
      obtain ⟨rfl, rfl⟩ := Prod.mk.inj (Except.ok.inj h)
      obtain ⟨us, rfl, hd⟩ := sound _ _ _ he
      exact ⟨⟨n, .name x⟩ :: ⟨m, .assign⟩ :: us, rfl, .assign hd⟩
    · cases h
  · next n x m op ts =>
    split at h
    · next e ts' he =>
      obtain ⟨rfl, rfl⟩ := Prod.mk.inj (Except.ok.inj h)
      obtain ⟨us, rfl, hd⟩ := sound _ _ _ he
      exact ⟨⟨n, .name x⟩ :: ⟨m, .augment op⟩ :: us, rfl, .augment hd⟩
    · cases h
  · split at h
    · cases h
    · next e ts' he =>
      obtain ⟨us, rfl, hd⟩ := sound _ _ _ he
      split at h
      · simp [failAt] at h
      · simp [failAt] at h
      · obtain ⟨rfl, rfl⟩ := Prod.mk.inj (Except.ok.inj h)
        -- the statement has the line of its first lexeme, and an expression has one
        cases us with
        | nil => exact absurd rfl hd.ne_nil
        | cons l us => exact ⟨l :: us, rfl, .eval hd⟩

end CalcDoc.Script
