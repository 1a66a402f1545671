import CalcDoc.Script.Grammar

/-!
# Readers with more levels

More levels of nesting change no reading but those that failed for want of levels.

- `Agrees`: a reading is the same as another, or the levels ran out in it. `Agrees.andThen` is how
  it passes to the readings around it.
- `readers_agree`: the readers of fewer levels agree with those of more, by induction on the fewer.
- `agrees_readStatement`: so do statements.
-/

namespace CalcDoc.Script

/-- A reading is the same as one with more levels, unless its levels ran out. -/
def Agrees {α : Type} (shallow deep : Reading α) : Prop :=
  shallow = deep ∨ ∃ line, shallow = .error (.malformed line .tooDeep)

theorem Agrees.refl {α : Type} (a : Reading α) : Agrees a a :=
  .inl rfl

/-- An expression and what is read after it agree if both do. -/
theorem Agrees.andThen {α : Type} {a b : Reading Expr} {k k' : Expr → List Lexeme → Reading α} :
    Agrees a b → (∀ e ts, Agrees (k e ts) (k' e ts)) →
    Agrees (match a with | .ok (e, ts) => k e ts | .error err => .error err)
      (match b with | .ok (e, ts) => k' e ts | .error err => .error err) := by
  rintro (rfl | ⟨line, rfl⟩) hk
  · cases a with
    | ok r => exact hk r.1 r.2
    | error err => exact .refl _
  · -- levels that run out in the expression run out in the whole
    exact .inr ⟨line, rfl⟩

/-- The readers of a level agree with other readers on all lexemes. -/
structure Readers.Agree (r r' : Readers) : Prop where
  chain : ∀ c ts, Agrees (r.chain c ts) (r'.chain c ts)
  more : ∀ c e ts, Agrees (r.more c e ts) (r'.more c e ts)
  negation : ∀ ts, Agrees (r.negation ts) (r'.negation ts)
  signed : ∀ ts, Agrees (r.signed ts) (r'.signed ts)

theorem Readers.Agree.operand {r r' : Readers} (h : r.Agree r') (ts : List Lexeme) :
    ∀ c : Chain, Agrees (r.operand c ts) (r'.operand c ts)
  | .either => h.chain .both ts
  | .both => h.negation ts
  | .sum => h.chain .product ts
  | .product => h.signed ts

/-- Where the fewer levels have a level left, the more levels have one too. -/
def LevelsAgree (inner inner' : Option Readers) : Prop :=
  ∀ r, inner = some r → ∃ r', inner' = some r' ∧ r.Agree r'

section Levels

variable (endLine : Nat) {inner inner' : Option Readers} (agree : LevelsAgree inner inner')

include agree

theorem agrees_descend {α : Type} (ts : List Lexeme) {read read' : Readers → Reading α}
    (hread : ∀ r r', r.Agree r' → Agrees (read r) (read' r')) :
    Agrees (descend endLine inner ts read) (descend endLine inner' ts read') := by
  cases hr : inner with
  | none => exact .inr ⟨nextLine endLine ts, rfl⟩
  | some r =>
    obtain ⟨r', hr', hagree⟩ := agree r hr
    rw [hr']
    exact hread r r' hagree

theorem agrees_readExpr (ts : List Lexeme) :
    Agrees (readExpr endLine inner ts) (readExpr endLine inner' ts) :=
  agrees_descend endLine agree ts fun _ _ h => h.chain .either ts

theorem agrees_readAtom (ts : List Lexeme) :
    Agrees (readAtom endLine inner ts) (readAtom endLine inner' ts) := by
  unfold readAtom
  split
  · exact .refl _
  · next l ts =>
    split
    · exact .refl _
    · split
      · exact .refl _
      · exact (agrees_readExpr endLine agree ts).andThen fun _ _ => .refl _
      · exact .refl _

theorem agrees_readArguments (count : Nat) (ts : List Lexeme) :
    Agrees (readArguments endLine inner count ts) (readArguments endLine inner' count ts) := by
  induction count generalizing ts with
  | zero => exact .refl _
  | succ count ih =>
    rw [readArguments, readArguments]
    rcases agrees_readExpr endLine agree ts with h | ⟨line, h⟩
    · rw [h]
      split
      · exact .refl _
      · exact .refl _
      · -- a comma with another argument behind it
        next e m ts' _ he =>
        rcases ih ts' with h | ⟨line, h⟩
        · rw [h]
          exact .refl _
        · exact .inr ⟨line, by rw [h]⟩
      · exact .refl _
    · exact .inr ⟨line, by rw [h]⟩

theorem agrees_readCall (ts : List Lexeme) :
    Agrees (readCall endLine inner ts) (readCall endLine inner' ts) := by
  unfold readCall
  split
  · exact .refl _
  · next ts _ =>
    rcases agrees_readArguments endLine agree (ts.length + 1) ts with h | ⟨line, h⟩
    · rw [h]
      exact .refl _
    · exact .inr ⟨line, by rw [h]⟩
  · exact agrees_readAtom endLine agree _

theorem agrees_readPower (ts : List Lexeme) :
    Agrees (readPower endLine inner ts) (readPower endLine inner' ts) := by
  unfold readPower
  rcases agrees_readCall endLine agree ts with h | ⟨line, h⟩
  · rw [h]
    split
    · exact .refl _
    · next base n ts' hb =>
      refine agrees_descend endLine agree ts' fun r r' hagree => ?_
      exact (hagree.signed ts').andThen fun _ _ => .refl _
    · exact .refl _
  · exact .inr ⟨line, by rw [h]⟩

theorem agrees_readSigned (ts : List Lexeme) :
    Agrees (readSigned endLine inner ts) (readSigned endLine inner' ts) := by
  unfold readSigned
  split
  · next op ts' hn =>
    refine agrees_descend endLine agree ts' fun r r' hagree => ?_
    exact (hagree.signed ts').andThen fun _ _ => .refl _
  · exact agrees_readPower endLine agree ts

theorem agrees_readMore (c : Chain) (left : Expr) (ts : List Lexeme) :
    Agrees (readMore endLine inner c left ts) (readMore endLine inner' c left ts) := by
  unfold readMore
  split
  · exact .refl _
  · next join ts' hn =>
    refine agrees_descend endLine agree ts' fun r r' hagree => ?_
    exact (hagree.operand ts' c).andThen fun _ _ => hagree.more c _ _

theorem agrees_readProduct (ts : List Lexeme) :
    Agrees (readProduct endLine inner ts) (readProduct endLine inner' ts) :=
  (agrees_readSigned endLine agree ts).andThen (agrees_readMore endLine agree .product)

theorem agrees_readSum (ts : List Lexeme) :
    Agrees (readSum endLine inner ts) (readSum endLine inner' ts) :=
  (agrees_readProduct endLine agree ts).andThen (agrees_readMore endLine agree .sum)

theorem agrees_readComparison (ts : List Lexeme) :
    Agrees (readComparison endLine inner ts) (readComparison endLine inner' ts) := by
  unfold readComparison
  rcases agrees_readSum endLine agree ts with h | ⟨line, h⟩
  · rw [h]
    split
    · exact .refl _
    · split
      · exact .refl _
      · next ts' hn =>
        rcases agrees_readSum endLine agree ts' with h | ⟨line, h⟩
        · rw [h]
          exact .refl _
        · exact .inr ⟨line, by rw [h]⟩
  · exact .inr ⟨line, by rw [h]⟩

theorem agrees_readNegation (ts : List Lexeme) :
    Agrees (readNegation endLine inner ts) (readNegation endLine inner' ts) := by
  unfold readNegation
  split
  · next n ts' =>
    refine agrees_descend endLine agree ts' fun r r' hagree => ?_
    exact (hagree.negation ts').andThen fun _ _ => .refl _
  · exact agrees_readComparison endLine agree ts

theorem agrees_readBoth (ts : List Lexeme) :
    Agrees (readBoth endLine inner ts) (readBoth endLine inner' ts) :=
  (agrees_readNegation endLine agree ts).andThen (agrees_readMore endLine agree .both)

theorem agrees_readEither (ts : List Lexeme) :
    Agrees (readEither endLine inner ts) (readEither endLine inner' ts) :=
  (agrees_readBoth endLine agree ts).andThen (agrees_readMore endLine agree .either)

theorem Readers.agree_around :
    (Readers.around endLine inner).Agree (Readers.around endLine inner') where
  chain
    | .either => agrees_readEither endLine agree
    | .both => agrees_readBoth endLine agree
    | .sum => agrees_readSum endLine agree
    | .product => agrees_readProduct endLine agree
  more := agrees_readMore endLine agree
  negation := agrees_readNegation endLine agree
  signed := agrees_readSigned endLine agree

theorem agrees_readStatement (ts : List Lexeme) :
    Agrees (readStatement endLine inner ts) (readStatement endLine inner' ts) := by
  unfold readStatement
  dsimp only
  split
  · exact .refl _
  · exact .refl _
  · next ts => exact (agrees_readExpr endLine agree ts).andThen fun _ _ => .refl _
  · next ts => exact (agrees_readExpr endLine agree ts).andThen fun _ _ => .refl _
  · rcases agrees_readExpr endLine agree ts with h | ⟨line, h⟩
    · rw [h]
      exact .refl _
    · exact .inr ⟨line, by rw [h]⟩

end Levels

/-- The readers of fewer levels agree with those of more. -/
theorem readers_agree (endLine : Nat) {levels levels' : Nat} (h : levels ≤ levels') :
    LevelsAgree (readers endLine levels) (readers endLine levels') := by
  induction levels generalizing levels' with
  | zero =>
    intro r hr
    cases hr
  | succ levels ih =>
    -- one level around readers that agree by induction
    intro r hr
    obtain rfl := Option.some.inj hr
    cases levels' with
    | zero => exact absurd h (Nat.not_succ_le_zero _)
    | succ levels' =>
      exact ⟨_, rfl, Readers.agree_around endLine (ih (Nat.le_of_succ_le_succ h))⟩

end CalcDoc.Script
