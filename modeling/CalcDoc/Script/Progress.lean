import CalcDoc.Script.Grammar

/-!
# Progress of the readers

Every reader of the grammar takes its lexemes from the front, and all but the reader of the rest
of a chain take at least one.

- `After`: some lexemes are what is left after at least one has been taken.
- `Takes`, `Keeps`: what a reader leaves is `After` what it is given, or an end of it.
- `readers_take`: the readers at every level take lexemes.
- `takes_readExpr`, `takes_readStatement`: so do expressions and statements.
-/

namespace CalcDoc.Script

/-- The lexemes `rest` are a proper end of `ts`. -/
def After (rest ts : List Lexeme) : Prop :=
  rest <:+ ts ∧ rest.length < ts.length

theorem After.trans_suffix {a b c : List Lexeme} (h : After a b) (h' : b <:+ c) : After a c :=
  ⟨h.1.trans h', Nat.lt_of_lt_of_le h.2 h'.length_le⟩

theorem After.suffix_trans {a b c : List Lexeme} (h : a <:+ b) (h' : After b c) : After a c :=
  ⟨h.trans h'.1, Nat.lt_of_le_of_lt h.length_le h'.2⟩

theorem After.cons (l : Lexeme) (ts : List Lexeme) : After ts (l :: ts) :=
  ⟨List.suffix_cons l ts, Nat.lt_succ_self _⟩

/-- A reader takes at least one lexeme, and takes lexemes from the front only. -/
def Takes {α : Type} (read : List Lexeme → Reading α) : Prop :=
  ∀ ts a rest, read ts = .ok (a, rest) → After rest ts

/-- A reader takes lexemes from the front only. -/
def Keeps {α : Type} (read : List Lexeme → Reading α) : Prop :=
  ∀ ts a rest, read ts = .ok (a, rest) → rest <:+ ts

/-- All readers of a level take a lexeme, but the reader of the rest of a chain may take none. -/
structure Readers.Take (r : Readers) : Prop where
  chain : ∀ c, Takes (r.chain c)
  more : ∀ c e, Keeps (r.more c e)
  negation : Takes r.negation
  signed : Takes r.signed

theorem Readers.Take.operand {r : Readers} (hr : r.Take) : ∀ c, Takes (r.operand c)
  | .either => hr.chain .both
  | .both => hr.negation
  | .sum => hr.chain .product
  | .product => hr.signed

theorem after_of_next? {α : Type} {meaning : Token → Option α} {ts rest : List Lexeme} {a : α}
    (h : next? meaning ts = some (a, rest)) : After rest ts := by
  unfold next? at h
  split at h
  · simp at h
  · split at h
    · obtain ⟨-, rfl⟩ := Prod.mk.inj (Option.some.inj h)
      exact After.cons _ _
    · simp at h

section Levels

variable {endLine : Nat} {inner : Option Readers} (take : ∀ r, inner = some r → r.Take)

/-- What is read one level further in is read by the readers of that level. -/
theorem exists_of_descend {α : Type} {ts : List Lexeme} {read : Readers → Reading α}
    {a : α × List Lexeme} (h : descend endLine inner ts read = .ok a) :
    ∃ r, inner = some r ∧ read r = .ok a := by
  unfold descend at h
  split at h
  · exact ⟨_, rfl, h⟩
  · simp [failAt] at h

theorem takes_readClose {α : Type} (a : α) : Takes (readClose endLine a) := by
  intro ts b rest h
  unfold readClose at h
  split at h
  · obtain ⟨-, rfl⟩ := Prod.mk.inj (Except.ok.inj h)
    exact After.cons _ _
  · simp [failAt] at h

include take

theorem takes_readExpr : Takes (readExpr endLine inner) := by
  intro ts a rest h
  obtain ⟨r, hr, h⟩ := exists_of_descend h
  exact (take r hr).chain _ _ _ _ h

theorem takes_readAtom : Takes (readAtom endLine inner) := by
  intro ts a rest h
  unfold readAtom at h
  split at h
  · simp [failAt] at h
  · next l ts =>
    split at h
    · obtain ⟨-, rfl⟩ := Prod.mk.inj (Except.ok.inj h)
      exact After.cons _ _
    · split at h
      · obtain ⟨-, rfl⟩ := Prod.mk.inj (Except.ok.inj h)
        exact After.cons _ _
      · split at h
        · next he =>
          have := (takes_readClose _ _ _ _ h).trans_suffix (takes_readExpr take _ _ _ he).1
          exact this.trans_suffix (List.suffix_cons _ _)
        · simp at h
      · simp [failAt] at h

theorem keeps_readArguments (count : Nat) : Keeps (readArguments endLine inner count) := by
  induction count with
  | zero =>
    intro ts a rest h
    obtain ⟨-, rfl⟩ := Prod.mk.inj (Except.ok.inj h)
    exact List.suffix_rfl
  | succ count ih =>
    intro ts a rest h
    unfold readArguments at h
    split at h
    · simp at h
    · next he =>
      obtain ⟨-, rfl⟩ := Prod.mk.inj (Except.ok.inj h)
      exact (List.suffix_cons _ _).trans (takes_readExpr take _ _ _ he).1
    · next he =>
      split at h
      · next hs =>
        obtain ⟨-, rfl⟩ := Prod.mk.inj (Except.ok.inj h)
        exact ((ih _ _ _ hs).trans (List.suffix_cons _ _)).trans (takes_readExpr take _ _ _ he).1
      · simp at h
    · next he =>
      obtain ⟨-, rfl⟩ := Prod.mk.inj (Except.ok.inj h)
      exact (takes_readExpr take _ _ _ he).1

theorem takes_readCall : Takes (readCall endLine inner) := by
  intro ts a rest h
  unfold readCall at h
  split at h
  · obtain ⟨-, rfl⟩ := Prod.mk.inj (Except.ok.inj h)
    exact ((After.cons _ _).trans_suffix (List.suffix_cons _ _)).trans_suffix
      (List.suffix_cons _ _)
  · split at h
    · next he =>
      have := (takes_readClose _ _ _ _ h).trans_suffix (keeps_readArguments take _ _ _ _ he)
      exact (this.trans_suffix (List.suffix_cons _ _)).trans_suffix (List.suffix_cons _ _)
    · simp at h
  · exact takes_readAtom take _ _ _ h

theorem takes_readPower : Takes (readPower endLine inner) := by
  intro ts a rest h
  unfold readPower at h
  split at h
  · simp at h
  · next he =>
    obtain ⟨r, hr, h⟩ := exists_of_descend h
    split at h
    · next hs =>
      obtain ⟨-, rfl⟩ := Prod.mk.inj (Except.ok.inj h)
      exact (((take r hr).signed _ _ _ hs).trans_suffix (List.suffix_cons _ _)).trans_suffix
        (takes_readCall take _ _ _ he).1
    · simp at h
  · next he =>
    obtain ⟨-, rfl⟩ := Prod.mk.inj (Except.ok.inj h)
    exact takes_readCall take _ _ _ he

theorem takes_readSigned : Takes (readSigned endLine inner) := by
  intro ts a rest h
  unfold readSigned at h
  split at h
  · next hn =>
    obtain ⟨r, hr, h⟩ := exists_of_descend h
    split at h
    · next hs =>
      obtain ⟨-, rfl⟩ := Prod.mk.inj (Except.ok.inj h)
      exact After.suffix_trans ((take r hr).signed _ _ _ hs).1 (after_of_next? hn)
    · simp at h
  · exact takes_readPower take _ _ _ h

theorem keeps_readMore (chain : Chain) (left : Expr) :
    Keeps (readMore endLine inner chain left) := by
  intro ts a rest h
  unfold readMore at h
  split at h
  · obtain ⟨-, rfl⟩ := Prod.mk.inj (Except.ok.inj h)
    exact List.suffix_rfl
  · next hn =>
    obtain ⟨r, hr, h⟩ := exists_of_descend h
    split at h
    · next hs =>
      have := ((take r hr).more _ _ _ _ _ h).trans ((take r hr).operand _ _ _ _ hs).1
      exact this.trans (after_of_next? hn).1
    · simp at h

/-- An operand and the rest of its chain. -/
theorem takes_chain (chain : Chain) {operand : List Lexeme → Reading Expr}
    (h : Takes operand) :
    Takes fun ts =>
      match operand ts with
      | .ok (e, ts) => readMore endLine inner chain e ts
      | .error e => .error e := by
  intro ts a rest hread
  dsimp only at hread
  split at hread
  · next he =>
    exact After.suffix_trans (keeps_readMore take _ _ _ _ _ hread) (h _ _ _ he)
  · simp at hread

theorem takes_readProduct : Takes (readProduct endLine inner) :=
  takes_chain take .product (takes_readSigned take)

theorem takes_readSum : Takes (readSum endLine inner) :=
  takes_chain take .sum (takes_readProduct take)

theorem takes_readComparison : Takes (readComparison endLine inner) := by
  intro ts a rest h
  unfold readComparison at h
  split at h
  · simp at h
  · next hl =>
    have left := takes_readSum take _ _ _ hl
    split at h
    · obtain ⟨-, rfl⟩ := Prod.mk.inj (Except.ok.inj h)
      exact left
    · next hn =>
      split at h
      · simp at h
      · next hr =>
        split at h
        · obtain ⟨-, rfl⟩ := Prod.mk.inj (Except.ok.inj h)
          exact ((takes_readSum take _ _ _ hr).trans_suffix (after_of_next? hn).1).trans_suffix
            left.1
        · simp [failAt] at h

theorem takes_readNegation : Takes (readNegation endLine inner) := by
  intro ts a rest h
  unfold readNegation at h
  split at h
  · obtain ⟨r, hr, h⟩ := exists_of_descend h
    split at h
    · next hs =>
      obtain ⟨-, rfl⟩ := Prod.mk.inj (Except.ok.inj h)
      exact ((take r hr).negation _ _ _ hs).trans_suffix (List.suffix_cons _ _)
    · simp at h
  · exact takes_readComparison take _ _ _ h

theorem takes_readBoth : Takes (readBoth endLine inner) :=
  takes_chain take .both (takes_readNegation take)

theorem takes_readEither : Takes (readEither endLine inner) :=
  takes_chain take .either (takes_readBoth take)

theorem Readers.take_around : (Readers.around endLine inner).Take where
  chain
    | .either => takes_readEither take
    | .both => takes_readBoth take
    | .sum => takes_readSum take
    | .product => takes_readProduct take
  more := keeps_readMore take
  negation := takes_readNegation take
  signed := takes_readSigned take

theorem takes_readStatement : Takes (readStatement endLine inner) := by
  intro ts a rest h
  unfold readStatement at h
  dsimp only at h
  split at h
  · obtain ⟨-, rfl⟩ := Prod.mk.inj (Except.ok.inj h)
    exact (After.cons _ _).trans_suffix (List.suffix_cons _ _)
  · simp [failAt] at h
  · split at h
    · next he =>
      obtain ⟨-, rfl⟩ := Prod.mk.inj (Except.ok.inj h)
      exact ((takes_readExpr take _ _ _ he).trans_suffix (List.suffix_cons _ _)).trans_suffix
        (List.suffix_cons _ _)
    · simp at h
  · split at h
    · next he =>
      obtain ⟨-, rfl⟩ := Prod.mk.inj (Except.ok.inj h)
      exact ((takes_readExpr take _ _ _ he).trans_suffix (List.suffix_cons _ _)).trans_suffix
        (List.suffix_cons _ _)
    · simp at h
  · split at h
    · simp at h
    · next he =>
      split at h
      · simp [failAt] at h
      · simp [failAt] at h
      · obtain ⟨-, rfl⟩ := Prod.mk.inj (Except.ok.inj h)
        exact takes_readExpr take _ _ _ he

end Levels

/-- The readers at every level take lexemes from the front. -/
theorem readers_take (endLine levels : Nat) : ∀ r, readers endLine levels = some r → r.Take := by
  induction levels with
  | zero => simp [readers]
  | succ levels ih =>
    intro r h
    obtain rfl := Option.some.inj h
    exact Readers.take_around ih

end CalcDoc.Script
