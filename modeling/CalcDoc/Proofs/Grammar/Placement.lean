import CalcDoc.Proofs.Grammar.Steps
import CalcDoc.Proofs.Lexemes.Joined

/-!
# Reading at another place

What is read does not depend on where it stands: neither on the lines of the lexemes nor on what
stands below them. Readings on later lines give the same, and fail at the same lexeme; and readings
that do not fail give the same when a separator and more lexemes follow.

- `placed`: lexemes on later lines, with other lexemes below them.
- `Carries`: a reading gives at another place what it gives here. `Carries.andThen` is how this
  passes to the readings around it.
- `readers_carry`: so do all readers, by induction on the levels.
- `carries_readStatement`: and so do statements.
-/

namespace CalcDoc.Script

/-- Lexemes on later lines, with other lexemes below them. -/
def placed (d : Nat) (below ls : List Lexeme) : List Lexeme :=
  ls.map (·.later d) ++ below

/-- The statement `d` lines further down. -/
def Statement.later (d : Nat) (s : Statement) : Statement :=
  { s with line := s.line + d }

/-- What `r` gives at the place, `r'` gives there. An error is the same only if nothing stands
below, since the end of the lexemes is no error of its own. -/
def Carries {α : Type} (d : Nat) (below : List Lexeme) (f : α → α) (r r' : Reading α) : Prop :=
  match r with
  | .ok (a, rest) => r' = .ok (f a, placed d below rest)
  | .error err => below = [] → r' = .error (err.later d)

/-- Where a reader is placed: on later lines, above a separator or the end. -/
structure Place (d endLine endLine' : Nat) (below : List Lexeme) : Prop where
  ends : EndsStatement below
  endLine : below = [] → endLine' = endLine + d

section Placement

variable {d endLine endLine' : Nat} {below : List Lexeme}

@[simp] theorem placed_nil : placed d below [] = below := rfl

@[simp] theorem placed_cons (l : Lexeme) (ls : List Lexeme) :
    placed d below (l :: ls) = l.later d :: placed d below ls := rfl

variable (place : Place d endLine endLine' below)

include place

/-- What stands next at the other place does so here, unless it stands below. -/
theorem nextToken?_of_placed {ts : List Lexeme} {k : Token}
    (hts : nextToken? (placed d below ts) = some k) (hk : k ≠ .separator) :
    nextToken? ts = some k := by
  cases ts with
  | nil => exact absurd (place.ends k hts) hk
  | cons l ts => exact hts

theorem nextToken?_placed_ne {ts : List Lexeme} {k : Token} (hk : k ≠ .separator)
    (hts : nextToken? ts ≠ some k) : nextToken? (placed d below ts) ≠ some k :=
  fun h => hts (nextToken?_of_placed place h hk)

theorem nextLine_placed (hbelow : below = []) (ts : List Lexeme) :
    nextLine endLine' (placed d below ts) = nextLine endLine ts + d := by
  subst hbelow
  cases ts with
  | nil => exact place.endLine rfl
  | cons l ts => rfl

omit place in
theorem nextToken?_placed (hbelow : below = []) (ts : List Lexeme) :
    nextToken? (placed d below ts) = nextToken? ts := by
  subst hbelow
  cases ts <;> rfl

theorem next?_placed {α : Type} {meaning : Token → Option α} (hsep : meaning .separator = none)
    (ts : List Lexeme) :
    next? meaning (placed d below ts) =
      (next? meaning ts).map fun p => (p.1, placed d below p.2) := by
  cases ts with
  | nil =>
    rw [placed_nil]
    cases hbelow : below with
    | nil => rfl
    | cons l ls =>
      have hl : l.token = .separator := place.ends l.token (by rw [hbelow]; rfl)
      simp [next?, hl, hsep]
  | cons l ts =>
    rw [placed_cons, Lexeme.later, next?, next?]
    dsimp only
    cases meaning l.token <;> rfl

theorem carries_failAt {α : Type} {f : α → α} (fault : Fault) (ts : List Lexeme) :
    Carries d below f (failAt endLine fault ts) (failAt endLine' fault (placed d below ts)) := by
  intro hbelow
  rw [failAt, nextLine_placed place hbelow]
  rfl

omit place in
/-- What is read after an expression is carried if the expression is. -/
theorem Carries.andThen {α : Type} {f : α → α} {a b : Reading Expr}
    {k k' : Expr → List Lexeme → Reading α} :
    Carries d below id a b → (∀ e ts, Carries d below f (k e ts) (k' e (placed d below ts))) →
    Carries d below f (match a with | .ok (e, ts) => k e ts | .error err => .error err)
      (match b with | .ok (e, ts) => k' e ts | .error err => .error err) := by
  intro hab hk
  cases a with
  | ok r =>
    obtain rfl : b = _ := hab
    exact hk r.1 r.2
  | error err =>
    intro hbelow
    rw [hab hbelow]

end Placement

/-- The readers of a level carry over to other readers. -/
structure Readers.Carry (d : Nat) (below : List Lexeme) (r r' : Readers) : Prop where
  chain : ∀ c ts, Carries d below id (r.chain c ts) (r'.chain c (placed d below ts))
  more : ∀ c e ts, Carries d below id (r.more c e ts) (r'.more c e (placed d below ts))
  negation : ∀ ts, Carries d below id (r.negation ts) (r'.negation (placed d below ts))
  signed : ∀ ts, Carries d below id (r.signed ts) (r'.signed (placed d below ts))

theorem Readers.Carry.operand {d : Nat} {below : List Lexeme} {r r' : Readers}
    (h : r.Carry d below r') (ts : List Lexeme) :
    ∀ c : Chain, Carries d below id (r.operand c ts) (r'.operand c (placed d below ts))
  | .either => h.chain .both ts
  | .both => h.negation ts
  | .sum => h.chain .product ts
  | .product => h.signed ts

/-- There are as many levels at both places, and their readers carry over. -/
inductive LevelsCarry (d : Nat) (below : List Lexeme) : Option Readers → Option Readers → Prop where
  | innermost : LevelsCarry d below none none
  | level {r r'} : r.Take → r.Carry d below r' → LevelsCarry d below (some r) (some r')

theorem LevelsCarry.take {d : Nat} {below : List Lexeme} {inner inner' : Option Readers}
    (h : LevelsCarry d below inner inner') : ∀ r, inner = some r → r.Take := by
  rintro r rfl
  cases h with
  | level htake _ => exact htake

section Levels

variable {d endLine endLine' : Nat} {below : List Lexeme}
  (place : Place d endLine endLine' below) {inner inner' : Option Readers}
  (carry : LevelsCarry d below inner inner')

include place carry

theorem carries_descend {α : Type} {f : α → α} (ts : List Lexeme)
    {read read' : Readers → Reading α}
    (hread : ∀ r r', r.Carry d below r' → Carries d below f (read r) (read' r')) :
    Carries d below f (descend endLine inner ts read)
      (descend endLine' inner' (placed d below ts) read') := by
  cases carry with
  | innermost => exact carries_failAt place .tooDeep ts
  | level _ hcarry => exact hread _ _ hcarry

theorem carries_readExpr (ts : List Lexeme) :
    Carries d below id (readExpr endLine inner ts)
      (readExpr endLine' inner' (placed d below ts)) :=
  carries_descend place carry ts fun _ _ h => h.chain .either ts

omit carry in
theorem carries_readClose {α : Type} (a : α) (ts : List Lexeme) :
    Carries d below id (readClose endLine a ts) (readClose endLine' a (placed d below ts)) := by
  by_cases hts : nextToken? ts = some .closeParen
  · obtain ⟨n, us, rfl⟩ := exists_of_nextToken? hts
    rfl
  · rw [readClose_of_ne a hts, readClose_of_ne a (nextToken?_placed_ne place (by simp) hts)]
    intro hbelow
    rw [nextToken?_placed hbelow]
    exact carries_failAt (f := id) place _ ts hbelow

theorem carries_readAtom (ts : List Lexeme) :
    Carries d below id (readAtom endLine inner ts)
      (readAtom endLine' inner' (placed d below ts)) := by
  cases ts with
  | nil =>
    intro hbelow
    subst hbelow
    exact carries_failAt (f := id) place (.expectedExpression none) [] rfl
  | cons l ts =>
    have hfail (k : Token) : Carries d below id (failAt endLine (.expectedExpression (some k)) ts)
        (failAt (α := Expr) endLine' (.expectedExpression (some k)) (placed d below ts)) :=
      carries_failAt place _ ts
    obtain ⟨n, k⟩ := l
    rw [placed_cons]
    cases k with
    | openParen =>
      exact (carries_readExpr place carry ts).andThen fun e ts => carries_readClose place e ts
    | int | float | str | name | bool | absent => rfl
    | and | or | not | del | arith | compare | assign | augment | closeParen | comma | separator =>
      exact hfail _

/-- As many arguments are read at the other place, if the count is no less there. -/
theorem carries_readArguments {count count' : Nat} {ts : List Lexeme} (hcount : ts.length < count)
    (hle : count ≤ count') :
    Carries d below id (readArguments endLine inner count ts)
      (readArguments endLine' inner' count' (placed d below ts)) := by
  induction count generalizing count' ts with
  | zero => exact absurd hcount (Nat.not_lt_zero _)
  | succ count ih =>
    obtain ⟨count', rfl⟩ : ∃ n, count' = n + 1 := ⟨count' - 1, by omega⟩
    have hexpr := carries_readExpr place carry ts
    cases he : readExpr endLine inner ts with
    | error err =>
      rw [he] at hexpr
      rw [readArguments, he, readArguments]
      intro hbelow
      rw [hexpr hbelow]
    | ok r =>
      obtain ⟨e, rest⟩ := r
      rw [he] at hexpr
      have hlength := (takes_readExpr carry.take _ _ _ he).2
      by_cases hcomma : nextToken? rest = some .comma
      · obtain ⟨n, us, rfl⟩ := exists_of_nextToken? hcomma
        rw [List.length_cons] at hlength
        by_cases hclose : nextToken? us = some .closeParen
        · -- the comma stands behind the last argument
          obtain ⟨m, vs, rfl⟩ := exists_of_nextToken? hclose
          rw [readArguments, he, readArguments, show readExpr endLine' inner' _ = _ from hexpr]
          rfl
        · have hexpr : readExpr endLine' inner' (placed d below ts) =
              .ok (e, ⟨n + d, .comma⟩ :: placed d below us) := hexpr
          have hargs := ih (show us.length < count by omega) (Nat.le_of_succ_le_succ hle)
          rw [readArguments_comma he hclose,
            readArguments_comma hexpr (nextToken?_placed_ne place (by simp) hclose)]
          cases hus : readArguments endLine inner count us with
          | error err =>
            rw [hus] at hargs
            intro hbelow
            rw [hargs hbelow]
          | ok r =>
            rw [hus] at hargs
            rw [show readArguments endLine' inner' count' _ = _ from hargs]
            rfl
      · rw [readArguments_last he hcomma]
        exact readArguments_last hexpr (nextToken?_placed_ne place (by simp) hcomma)

theorem carries_readCall (ts : List Lexeme) :
    Carries d below id (readCall endLine inner ts)
      (readCall endLine' inner' (placed d below ts)) := by
  by_cases hcall : ∃ n f m us, ts = ⟨n, .name f⟩ :: ⟨m, .openParen⟩ :: us
  · obtain ⟨n, f, m, us, rfl⟩ := hcall
    by_cases hclose : nextToken? us = some .closeParen
    · obtain ⟨i, vs, rfl⟩ := exists_of_nextToken? hclose
      rfl
    · have hcount : us.length + 1 ≤ (placed d below us).length + 1 := by
        rw [placed, List.length_append, List.length_map]
        omega
      have hargs := carries_readArguments place carry (Nat.lt_succ_self us.length) hcount
      rw [placed_cons, placed_cons, readCall_arguments hclose, Lexeme.later, Lexeme.later,
        readCall_arguments (nextToken?_placed_ne place (by simp) hclose)]
      cases hus : readArguments endLine inner (us.length + 1) us with
      | error err =>
        rw [hus] at hargs
        intro hbelow
        rw [hargs hbelow]
      | ok r =>
        rw [hus] at hargs
        rw [show readArguments endLine' inner' _ _ = _ from hargs]
        exact carries_readClose place _ _
  · have hcall' : ¬ ∃ n f m us, placed d below ts = ⟨n, .name f⟩ :: ⟨m, .openParen⟩ :: us := by
      rintro ⟨n, f, m, us, hts⟩
      have hname : nextToken? (placed d below ts) = some (.name f) := by rw [hts]; rfl
      obtain ⟨i, vs, rfl⟩ := exists_of_nextToken? (nextToken?_of_placed place hname (by simp))
      have hopen : nextToken? (placed d below vs) = some .openParen := by
        rw [show placed d below vs = _ from (List.cons.inj hts).2]
        rfl
      obtain ⟨j, vs, rfl⟩ := exists_of_nextToken? (nextToken?_of_placed place hopen (by simp))
      exact hcall ⟨_, _, _, _, rfl⟩
    rw [readCall_atom hcall, readCall_atom hcall']
    exact carries_readAtom place carry ts

theorem carries_readPower (ts : List Lexeme) :
    Carries d below id (readPower endLine inner ts)
      (readPower endLine' inner' (placed d below ts)) := by
  have hcall := carries_readCall place carry ts
  cases hb : readCall endLine inner ts with
  | error err =>
    rw [hb] at hcall
    rw [readPower, hb, readPower]
    intro hbelow
    rw [hcall hbelow]
  | ok r =>
    obtain ⟨base, us⟩ := r
    rw [hb] at hcall
    have hcall : readCall endLine' inner' (placed d below ts) = .ok (base, placed d below us) :=
      hcall
    by_cases hpow : nextToken? us = some (.arith .pow)
    · obtain ⟨n, vs, rfl⟩ := exists_of_nextToken? hpow
      rw [readPower, hb, readPower, hcall]
      refine carries_descend place carry vs fun r r' h => ?_
      exact (h.signed vs).andThen fun _ _ => rfl
    · rw [readPower_of_ne hb hpow]
      exact readPower_of_ne hcall (nextToken?_placed_ne place (by simp) hpow)

theorem carries_readSigned (ts : List Lexeme) :
    Carries d below id (readSigned endLine inner ts)
      (readSigned endLine' inner' (placed d below ts)) := by
  rw [readSigned, readSigned, next?_placed place rfl]
  cases next? Token.sign? ts with
  | none => exact carries_readPower place carry ts
  | some r =>
    refine carries_descend place carry r.2 fun _ _ h => ?_
    exact (h.signed r.2).andThen fun _ _ => rfl

theorem carries_readMore (c : Chain) (left : Expr) (ts : List Lexeme) :
    Carries d below id (readMore endLine inner c left ts)
      (readMore endLine' inner' c left (placed d below ts)) := by
  have hsep : c.join? .separator = none := by cases c <;> rfl
  rw [readMore, readMore, next?_placed place hsep]
  cases next? c.join? ts with
  | none => rfl
  | some r =>
    refine carries_descend place carry r.2 fun _ _ h => ?_
    exact (h.operand r.2 c).andThen fun e us => h.more c (r.1 left e) us

theorem carries_readProduct (ts : List Lexeme) :
    Carries d below id (readProduct endLine inner ts)
      (readProduct endLine' inner' (placed d below ts)) :=
  (carries_readSigned place carry ts).andThen (carries_readMore place carry .product)

theorem carries_readSum (ts : List Lexeme) :
    Carries d below id (readSum endLine inner ts)
      (readSum endLine' inner' (placed d below ts)) :=
  (carries_readProduct place carry ts).andThen (carries_readMore place carry .sum)

theorem carries_readComparison (ts : List Lexeme) :
    Carries d below id (readComparison endLine inner ts)
      (readComparison endLine' inner' (placed d below ts)) := by
  have hleft := carries_readSum place carry ts
  rw [readComparison, readComparison]
  cases ha : readSum endLine inner ts with
  | error err =>
    rw [ha] at hleft
    intro hbelow
    rw [hleft hbelow]
  | ok r =>
    obtain ⟨left, us⟩ := r
    rw [ha] at hleft
    rw [show readSum endLine' inner' _ = _ from hleft]
    dsimp only
    rw [next?_placed place rfl]
    cases next? Token.compare? us with
    | none => rfl
    | some r =>
      obtain ⟨op, vs⟩ := r
      have hright := carries_readSum place carry vs
      dsimp only [Option.map]
      cases hb : readSum endLine inner vs with
      | error err =>
        rw [hb] at hright
        intro hbelow
        rw [hright hbelow]
      | ok r =>
        obtain ⟨right, ws⟩ := r
        rw [hb] at hright
        rw [show readSum endLine' inner' _ = _ from hright]
        dsimp only
        rw [next?_placed place rfl]
        cases next? Token.compare? ws with
        | none => rfl
        | some r => exact carries_failAt place .chainedComparison ws

theorem carries_readNegation (ts : List Lexeme) :
    Carries d below id (readNegation endLine inner ts)
      (readNegation endLine' inner' (placed d below ts)) := by
  by_cases hnot : nextToken? ts = some .not
  · obtain ⟨n, us, rfl⟩ := exists_of_nextToken? hnot
    refine carries_descend place carry us fun _ _ h => ?_
    exact (h.negation us).andThen fun _ _ => rfl
  · rw [readNegation_of_ne hnot, readNegation_of_ne (nextToken?_placed_ne place (by simp) hnot)]
    exact carries_readComparison place carry ts

theorem carries_readBoth (ts : List Lexeme) :
    Carries d below id (readBoth endLine inner ts)
      (readBoth endLine' inner' (placed d below ts)) :=
  (carries_readNegation place carry ts).andThen (carries_readMore place carry .both)

theorem carries_readEither (ts : List Lexeme) :
    Carries d below id (readEither endLine inner ts)
      (readEither endLine' inner' (placed d below ts)) :=
  (carries_readBoth place carry ts).andThen (carries_readMore place carry .either)

theorem Readers.carry_around :
    (Readers.around endLine inner).Carry d below (Readers.around endLine' inner') where
  chain
    | .either => carries_readEither place carry
    | .both => carries_readBoth place carry
    | .sum => carries_readSum place carry
    | .product => carries_readProduct place carry
  more := carries_readMore place carry
  negation := carries_readNegation place carry
  signed := carries_readSigned place carry

theorem carries_readStatement_eval {ts : List Lexeme} (hdel : nextToken? ts ≠ some .del)
    (hname : ∀ n x us, ts = ⟨n, .name x⟩ :: us → ¬ Assigns us) :
    Carries d below (Statement.later d) (readStatement endLine inner ts)
      (readStatement endLine' inner' (placed d below ts)) := by
  have hname' (n : Nat) (x : String) (us : List Lexeme)
      (hts : placed d below ts = ⟨n, .name x⟩ :: us) : ¬ Assigns us := by
    have hnext : nextToken? (placed d below ts) = some (.name x) := by rw [hts]; rfl
    obtain ⟨i, vs, rfl⟩ := exists_of_nextToken? (nextToken?_of_placed place hnext (by simp))
    obtain rfl : placed d below vs = us := (List.cons.inj hts).2
    rintro (h | ⟨op, h⟩)
    · exact hname _ _ _ rfl (.inl (nextToken?_of_placed place h (by simp)))
    · exact hname _ _ _ rfl (.inr ⟨op, nextToken?_of_placed place h (by simp)⟩)
  rw [readStatement_of_not_assigns hdel hname,
    readStatement_of_not_assigns (nextToken?_placed_ne place (by simp) hdel) hname']
  have hexpr := carries_readExpr place carry ts
  cases he : readExpr endLine inner ts with
  | error err =>
    rw [he] at hexpr
    intro hbelow
    rw [hexpr hbelow]
  | ok r =>
    obtain ⟨e, us⟩ := r
    rw [he] at hexpr
    rw [show readExpr endLine' inner' _ = _ from hexpr]
    dsimp only
    -- an expression takes lexemes, so the statement begins on the line of the first one
    have hline : nextLine endLine' (placed d below ts) = nextLine endLine ts + d := by
      cases ts with
      | nil => exact absurd (takes_readExpr carry.take _ _ _ he).2 (Nat.not_lt_zero _)
      | cons l ts => rfl
    rw [hline]
    cases us with
    | nil =>
      have hbelow : ∀ k, nextToken? below = some k → k = .separator := place.ends
      rw [placed_nil]
      cases hk : nextToken? below with
      | none => rfl
      | some k =>
        obtain rfl := hbelow k hk
        rfl
    | cons l us =>
      obtain ⟨n, k⟩ := l
      cases k with
      | assign => exact carries_failAt place .notAssignable (⟨n, .assign⟩ :: us)
      | augment op => exact carries_failAt place .notAssignable (⟨n, .augment op⟩ :: us)
      | _ => rfl

theorem carries_readStatement (ts : List Lexeme) :
    Carries d below (Statement.later d) (readStatement endLine inner ts)
      (readStatement endLine' inner' (placed d below ts)) := by
  by_cases hdel : nextToken? ts = some .del
  · obtain ⟨n, us, rfl⟩ := exists_of_nextToken? hdel
    by_cases hname : ∃ x, nextToken? us = some (.name x)
    · obtain ⟨x, hx⟩ := hname
      obtain ⟨m, vs, rfl⟩ := exists_of_nextToken? hx
      rfl
    · have hne : ∀ x, nextToken? us ≠ some (.name x) := fun x hx => hname ⟨x, hx⟩
      have hne' (x : String) : nextToken? (placed d below us) ≠ some (.name x) :=
        nextToken?_placed_ne place (by simp) (hne x)
      rw [readStatement_del hne, placed_cons, Lexeme.later, readStatement_del hne']
      intro hbelow
      have htail : (placed d below us).tail = placed d below us.tail := by
        subst hbelow
        cases us <;> rfl
      rw [nextToken?_placed hbelow, htail]
      exact carries_failAt (f := Statement.later d) place _ us.tail hbelow
  · by_cases hassigns : ∃ n x us, ts = ⟨n, .name x⟩ :: us ∧ Assigns us
    · obtain ⟨n, x, us, rfl, hus | ⟨op, hus⟩⟩ := hassigns
      · obtain ⟨m, vs, rfl⟩ := exists_of_nextToken? hus
        exact (carries_readExpr place carry vs).andThen fun _ _ => rfl
      · obtain ⟨m, vs, rfl⟩ := exists_of_nextToken? hus
        exact (carries_readExpr place carry vs).andThen fun _ _ => rfl
    · exact carries_readStatement_eval place carry hdel fun n x us hts h =>
        hassigns ⟨n, x, us, hts, h⟩

end Levels

/-- The readers carry over, level by level. -/
theorem readers_carry {d endLine endLine' : Nat} {below : List Lexeme}
    (place : Place d endLine endLine' below) (levels : Nat) :
    LevelsCarry d below (readers endLine levels) (readers endLine' levels) := by
  induction levels with
  | zero => exact .innermost
  | succ levels ih =>
    exact .level (readers_take endLine (levels + 1) _ rfl) (Readers.carry_around place ih)

end CalcDoc.Script
