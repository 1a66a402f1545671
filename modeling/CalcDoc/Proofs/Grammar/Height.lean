import CalcDoc.Proofs.Grammar.Programs
import Mathlib.Tactic.Ring

/-!
# How tall the expressions are that are read

The levels of nesting bound the height of what is read, but not by their number. A chain takes its
operands at ever deeper levels and returns to its own level at its end, while its tree has grown by
one for each operand; and the chains of one level stand on top of each other.

- `Rung.tallest`: the bound for each rung.
- `LevelLow`, `levelLow`: the readers of a level keep to it, by induction on the levels.
- `height_of_ofText`: the bound for the programs of sources.
-/

namespace CalcDoc.Script

/-- The expression of an action, if it has one. -/
def Action.expr? : Action → Option Expr
  | .assign _ e | .augment _ _ e | .eval e => some e
  | .delete _ => none

/-- The greatest height of a power or an expression with signs. One more level adds a link to each
of the four chains for every level below it, a comparison, a call and a power. -/
def tallestSigned : (levels : Nat) → Nat
  | 0 => 1
  | levels + 1 => tallestSigned levels + 4 * levels + 3

/-- The greatest height of a whole expression that is read one level further in. -/
def tallestInside : (levels : Nat) → Nat
  | 0 => 0
  | levels + 1 => tallestSigned levels + 4 * levels + 1

/-- The greatest height of an expression of a rung, with some levels left. -/
def Rung.tallest (levels : Nat) : Rung → Nat
  | .either => tallestSigned levels + 4 * levels + 1
  | .both => tallestSigned levels + 3 * levels + 1
  | .negation | .comparison => tallestSigned levels + 2 * levels + 1
  | .sum => tallestSigned levels + 2 * levels
  | .product => tallestSigned levels + levels
  | .signed | .power => tallestSigned levels
  | .primary => tallestInside levels + 1

/-- Each chain adds as many links as there are levels. -/
theorem tallest_rung (levels : Nat) (c : Chain) :
    c.rung.tallest levels = c.operandRung.tallest levels + levels := by
  cases c <;> simp [Chain.rung, Chain.operandRung, Rung.tallest] <;> omega

theorem tallest_operandRung_succ (levels : Nat) (c : Chain) :
    c.operandRung.tallest levels ≤ c.operandRung.tallest (levels + 1) := by
  cases c <;> simp [Chain.operandRung, Rung.tallest, tallestSigned] <;> omega

theorem tallestInside_lt_tallestSigned (levels : Nat) :
    tallestInside levels < tallestSigned levels := by
  cases levels with
  | zero => decide
  | succ levels => simp only [tallestInside, tallestSigned]; omega

/-- The bound in closed form. -/
theorem tallestSigned_eq (levels : Nat) : tallestSigned levels = 2 * levels ^ 2 + levels + 1 := by
  induction levels with
  | zero => rfl
  | succ levels ih =>
    rw [tallestSigned, ih]
    ring

/-- What is read is at most so tall. -/
def Low (n : Nat) (read : List Lexeme → Reading Expr) : Prop :=
  ∀ ts e rest, read ts = .ok (e, rest) → e.height ≤ n

/-- The readers of a level read nothing taller than their rungs allow. -/
structure LevelLow (endLine levels : Nat) : Prop where
  read : ∀ r : Rung, Low (r.tallest levels) (r.read endLine (readers endLine levels))
  more : ∀ c left n, left.height ≤ n → c.operandRung.tallest levels ≤ n →
    Low (n + levels) (readMore endLine (readers endLine levels) c left)

theorem height_of_join? {c : Chain} {k : Token} {join : Expr → Expr → Expr}
    (h : c.join? k = some join) (a b : Expr) :
    (join a b).height = max a.height b.height + 1 := by
  unfold Chain.join? at h
  split at h <;> cases h <;> rfl

section Levels

variable {endLine levels : Nat}

/-- One level further in, one level less is left. -/
theorem exists_of_descend_readers {α : Type} {ts : List Lexeme} {read : Readers → Reading α}
    {a : α × List Lexeme} (h : descend endLine (readers endLine levels) ts read = .ok a) :
    ∃ k, levels = k + 1 ∧ read (Readers.around endLine (readers endLine k)) = .ok a := by
  cases levels with
  | zero => simp [readers, descend, failAt] at h
  | succ k => exact ⟨k, rfl, h⟩

/-- A chain on a first operand that keeps to the bound keeps to it. -/
theorem low_chain (c : Chain)
    (more : ∀ left n, left.height ≤ n → c.operandRung.tallest levels ≤ n →
      Low (n + levels) (readMore endLine (readers endLine levels) c left))
    (hoperand : Low (c.operandRung.tallest levels)
      (c.operandRung.read endLine (readers endLine levels))) :
    Low (c.rung.tallest levels) (c.rung.read endLine (readers endLine levels)) := by
  intro ts e rest h
  cases ha : c.operandRung.read endLine (readers endLine levels) ts with
  | error err =>
    rw [read_chain_error c ha] at h
    cases h
  | ok am =>
    obtain ⟨a, mid⟩ := am
    rw [read_chain c ha] at h
    rw [tallest_rung]
    exact more a _ (hoperand _ _ _ ha) (Nat.le_refl _) _ _ _ h

variable (low : ∀ k, levels = k + 1 → LevelLow endLine k)

include low

theorem low_readExpr : Low (tallestInside levels) (readExpr endLine (readers endLine levels)) := by
  intro ts e rest h
  obtain ⟨k, rfl, hr⟩ := exists_of_descend_readers h
  rw [Readers.chain_around] at hr
  exact (low k rfl).read .either _ _ _ hr

theorem low_readAtom :
    Low (tallestInside levels + 1) (readAtom endLine (readers endLine levels)) := by
  intro ts e rest h
  unfold readAtom at h
  split at h
  · simp [failAt] at h
  · split at h
    · obtain ⟨rfl, -⟩ := Prod.mk.inj (Except.ok.inj h)
      simp [Expr.height]
    · split at h
      · obtain ⟨rfl, -⟩ := Prod.mk.inj (Except.ok.inj h)
        simp [Expr.height]
      · split at h
        · next he =>
          obtain ⟨rfl, -⟩ := exists_of_readClose h
          exact Nat.le_succ_of_le (low_readExpr low _ _ _ he)
        · cases h
      · simp [failAt] at h

theorem heights_readArguments (count : Nat) :
    ∀ ts es rest, readArguments endLine (readers endLine levels) count ts = .ok (es, rest) →
      Expr.heights es ≤ tallestInside levels := by
  induction count with
  | zero =>
    intro ts es rest h
    obtain ⟨rfl, -⟩ := Prod.mk.inj (Except.ok.inj h)
    exact Nat.zero_le _
  | succ count ih =>
    intro ts es rest h
    unfold readArguments at h
    split at h
    · cases h
    · next he =>
      obtain ⟨rfl, -⟩ := Prod.mk.inj (Except.ok.inj h)
      simpa [Expr.heights] using low_readExpr low _ _ _ he
    · next he =>
      split at h
      · next hes =>
        obtain ⟨rfl, -⟩ := Prod.mk.inj (Except.ok.inj h)
        exact Nat.max_le.2 ⟨low_readExpr low _ _ _ he, ih _ _ _ hes⟩
      · cases h
    · next he =>
      obtain ⟨rfl, -⟩ := Prod.mk.inj (Except.ok.inj h)
      simpa [Expr.heights] using low_readExpr low _ _ _ he

theorem low_readCall :
    Low (tallestInside levels + 1) (readCall endLine (readers endLine levels)) := by
  intro ts e rest h
  unfold readCall at h
  split at h
  · obtain ⟨rfl, -⟩ := Prod.mk.inj (Except.ok.inj h)
    simp [Expr.height, Expr.heights]
  · split at h
    · next ha =>
      obtain ⟨rfl, -⟩ := exists_of_readClose h
      exact Nat.succ_le_succ (heights_readArguments low _ _ _ _ ha)
    · cases h
  · exact low_readAtom low _ _ _ h

theorem low_readPower :
    Low (tallestSigned levels) (readPower endLine (readers endLine levels)) := by
  intro ts e rest h
  have hlt := tallestInside_lt_tallestSigned levels
  unfold readPower at h
  split at h
  · cases h
  · next base _ _ hb =>
    have hbase := low_readCall low _ _ _ hb
    -- the exponent has one level less than the base
    obtain ⟨k, rfl, hp⟩ := exists_of_descend_readers h
    split at hp
    · next exponent _ he =>
      obtain ⟨rfl, -⟩ := Prod.mk.inj (Except.ok.inj hp)
      have hexponent : exponent.height ≤ tallestSigned k := (low k rfl).read .signed _ _ _ he
      simp only [Expr.height, tallestSigned, tallestInside] at hbase ⊢
      omega
    · cases hp
  · next hb =>
    obtain ⟨rfl, -⟩ := Prod.mk.inj (Except.ok.inj h)
    exact Nat.le_trans (low_readCall low _ _ _ hb) hlt

theorem low_readSigned :
    Low (tallestSigned levels) (readSigned endLine (readers endLine levels)) := by
  intro ts e rest h
  unfold readSigned at h
  split at h
  · obtain ⟨k, rfl, hs⟩ := exists_of_descend_readers h
    split at hs
    · next e' _ he =>
      obtain ⟨rfl, -⟩ := Prod.mk.inj (Except.ok.inj hs)
      have hoperand : e'.height ≤ tallestSigned k := (low k rfl).read .signed _ _ _ he
      simp only [Expr.height, tallestSigned]
      omega
    · cases hs
  · exact low_readPower low _ _ _ h

/-- Joining adds one to the height, and costs a level. -/
theorem low_readMore (c : Chain) (left : Expr) (n : Nat) (hleft : left.height ≤ n)
    (hn : c.operandRung.tallest levels ≤ n) :
    Low (n + levels) (readMore endLine (readers endLine levels) c left) := by
  intro ts e rest h
  unfold readMore at h
  split at h
  · obtain ⟨rfl, -⟩ := Prod.mk.inj (Except.ok.inj h)
    exact Nat.le_add_right_of_le hleft
  · next join _ hnext =>
    obtain ⟨k, rfl, hd⟩ := exists_of_descend_readers h
    split at hd
    · next right _ hr =>
      have hk := tallest_operandRung_succ k c
      rw [Readers.operand_around] at hr
      have hright := (low k rfl).read c.operandRung _ _ _ hr
      obtain ⟨l, -, hjoin⟩ := exists_of_next? hnext
      -- the rest of the chain has one level less, and a taller left operand
      have hjoined : (join left right).height ≤ n + 1 := by
        rw [height_of_join? hjoin]
        omega
      have hmore := (low k rfl).more c _ (n + 1) hjoined (by omega) _ _ _ hd
      omega
    · cases hd

omit low in
theorem low_readComparison (hsum : Low (Rung.sum.tallest levels)
      (readSum endLine (readers endLine levels))) :
    Low (Rung.comparison.tallest levels) (readComparison endLine (readers endLine levels)) := by
  intro ts e rest h
  unfold readComparison at h
  split at h
  · cases h
  · next hl =>
    have hleft := hsum _ _ _ hl
    split at h
    · obtain ⟨rfl, -⟩ := Prod.mk.inj (Except.ok.inj h)
      exact Nat.le_succ_of_le hleft
    · split at h
      · cases h
      · next hr =>
        have hright := hsum _ _ _ hr
        split at h
        · obtain ⟨rfl, -⟩ := Prod.mk.inj (Except.ok.inj h)
          exact Nat.succ_le_succ (Nat.max_le.2 ⟨hleft, hright⟩)
        · simp [failAt] at h

theorem low_readNegation (hcomparison : Low (Rung.comparison.tallest levels)
      (readComparison endLine (readers endLine levels))) :
    Low (Rung.negation.tallest levels) (readNegation endLine (readers endLine levels)) := by
  intro ts e rest h
  unfold readNegation at h
  split at h
  · obtain ⟨k, rfl, hn⟩ := exists_of_descend_readers h
    split at hn
    · next he =>
      obtain ⟨rfl, -⟩ := Prod.mk.inj (Except.ok.inj hn)
      have hoperand := (low k rfl).read .negation _ _ _ he
      simp only [Expr.height, Rung.tallest, tallestSigned] at hoperand ⊢
      omega
    · cases hn
  · exact hcomparison _ _ _ h

/-- From the levels further in to a level. -/
theorem levelLow_around : LevelLow endLine levels := by
  have more := low_readMore low
  -- from the tightest rung to the loosest, each on top of the one before
  have signed : Low (Rung.signed.tallest levels) _ := low_readSigned low
  have product := low_chain .product (more .product) signed
  have sum := low_chain .sum (more .sum) product
  have comparison := low_readComparison sum
  have negation := low_readNegation low comparison
  have both := low_chain .both (more .both) negation
  have either := low_chain .either (more .either) both
  refine ⟨fun r => ?_, more⟩
  cases r with
  | either => exact either
  | both => exact both
  | negation => exact negation
  | comparison => exact comparison
  | sum => exact sum
  | product => exact product
  | signed => exact signed
  | power => exact low_readPower low
  | primary => exact low_readCall low

end Levels

/-- The readers of every level keep to the bound. -/
theorem levelLow (endLine levels : Nat) : LevelLow endLine levels := by
  induction levels with
  | zero => exact levelLow_around fun k hk => absurd hk (Nat.succ_ne_zero k).symm
  | succ levels ih => exact levelLow_around fun k hk => Nat.succ.inj hk ▸ ih

/-! ## Programs -/

theorem height_of_readStatement {endLine levels : Nat} {ts rest : List Lexeme} {s : Statement}
    {e : Expr} (h : readStatement endLine (readers endLine levels) ts = .ok (s, rest))
    (he : s.action.expr? = some e) : e.height ≤ tallestInside levels := by
  have low : Low (tallestInside levels) (readExpr endLine (readers endLine levels)) :=
    low_readExpr fun k _ => levelLow endLine k
  unfold readStatement at h
  dsimp only at h
  split at h
  · obtain ⟨rfl, -⟩ := Prod.mk.inj (Except.ok.inj h)
    cases he
  · simp [failAt] at h
  · split at h
    · next hr =>
      obtain ⟨rfl, -⟩ := Prod.mk.inj (Except.ok.inj h)
      exact Option.some.inj he ▸ low _ _ _ hr
    · cases h
  · split at h
    · next hr =>
      obtain ⟨rfl, -⟩ := Prod.mk.inj (Except.ok.inj h)
      exact Option.some.inj he ▸ low _ _ _ hr
    · cases h
  · split at h
    · cases h
    · next hr =>
      split at h
      · simp [failAt] at h
      · simp [failAt] at h
      · obtain ⟨rfl, -⟩ := Prod.mk.inj (Except.ok.inj h)
        exact Option.some.inj he ▸ low _ _ _ hr

theorem height_of_readProgram {endLine : Nat} {ts : List Lexeme} {p : Program} {s : Statement}
    {e : Expr} (h : readProgram endLine ts = .ok p) (hs : s ∈ p)
    (he : s.action.expr? = some e) : e.height ≤ tallestInside maxDepth := by
  fun_induction readProgram endLine ts generalizing p with
  | case1 =>
    cases h
    cases hs
  | case2 n rest ih => exact ih h hs
  | case3 => cases h
  | case4 l rest _ s' hr =>
    cases h
    obtain rfl := List.mem_singleton.1 hs
    exact height_of_readStatement hr he
  | case5 l rest _ s' n rest' hr ss hss ih =>
    cases h
    rcases List.mem_cons.1 hs with rfl | hs
    · exact height_of_readStatement hr he
    · exact ih hss hs
  | case6 => cases h
  | case7 => cases h

/-- The expressions of the program of a source keep to the bound. -/
theorem height_of_ofText {source : Text} {p : Program} {s : Statement} {e : Expr}
    (h : Program.ofText source = .ok p) (hs : s ∈ p) (he : s.action.expr? = some e) :
    e.height ≤ tallestInside maxDepth := by
  unfold Program.ofText at h
  split at h
  · exact height_of_readProgram h hs he
  · cases h

end CalcDoc.Script
