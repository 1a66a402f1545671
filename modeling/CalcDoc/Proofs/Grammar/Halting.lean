import CalcDoc.Proofs.Grammar.Placement

/-!
# Where readers halt

A reader halts at a token: the first one behind what it returns, or the one that it finds in the
place of another. What it does depends on the lexemes that it has taken and on that token, but on
nothing behind it. And what it has taken when it finds a token out of place is the beginning of an
expression, so no earlier token is out of place.

- `Fault.found?`, `Fault.reportedAt`: the token that a fault names, and where it is reported.
- `Halts`: what a reader does whatever stands behind the token at which it halts.
- `HaltsAt`: a reader halts on some lexemes. `HaltsAt.after` is how this passes to the readers
  around it.
- `readers_halt`: all readers halt, by induction on the levels.
-/

namespace CalcDoc.Script

/-! ## Faults that name a token -/

/-- The token that a fault has found in the place of another; the end of the source if that is
none. Other faults name no token. -/
def Fault.found? : Fault → Option (Option Token)
  | .expectedCloseParen found | .expectedEndOfStatement found | .expectedNameAfterDel found
  | .expectedExpression found => some found
  | _ => none

/-- The message of a fault that names a token ends with that token. -/
theorem Fault.message_of_found? {fault : Fault} {found : Option Token}
    (h : fault.found? = some found) :
    ∃ expected, fault.message = expected ++ ", found " ++ describe found := by
  cases fault with
  | expectedCloseParen =>
    cases h
    exact ⟨"expected ')'", rfl⟩
  | expectedEndOfStatement =>
    cases h
    exact ⟨"expected end of statement", rfl⟩
  | expectedNameAfterDel =>
    cases h
    exact ⟨"expected a name after 'del'", rfl⟩
  | expectedExpression =>
    cases h
    exact ⟨"expected an expression", rfl⟩
  | _ => cases h

/-- Whether the token that a fault names has been taken before the fault is reported. -/
def Fault.takesFound : Fault → Bool
  | .expectedNameAfterDel _ | .expectedExpression _ => true
  | _ => false

/-- The lexemes at which a fault is reported that names the first token of `rest`. -/
def Fault.reportedAt (fault : Fault) (rest : List Lexeme) : List Lexeme :=
  if fault.takesFound then rest.tail else rest

/-! ## What stands next -/

theorem nextToken?_append {rest rest' : List Lexeme} (h : nextToken? rest' = nextToken? rest)
    (taken : List Lexeme) : nextToken? (taken ++ rest') = nextToken? (taken ++ rest) := by
  cases taken with
  | nil => exact h
  | cons l taken => rfl

theorem next?_eq_bind {α : Type} (meaning : Token → Option α) (ts : List Lexeme) :
    next? meaning ts = ((nextToken? ts).bind meaning).map fun a => (a, ts.tail) := by
  cases ts with
  | nil => rfl
  | cons l ts =>
    rw [next?, nextToken?, Option.bind_some]
    cases meaning l.token <;> rfl

theorem next?_eq_none_of_eq {α : Type} {meaning : Token → Option α} {ts us : List Lexeme}
    (hus : nextToken? us = nextToken? ts) (h : next? meaning ts = none) :
    next? meaning us = none := by
  rw [next?_eq_bind, Option.map_eq_none_iff] at h ⊢
  rw [hus, h]

/-! ## Stopping -/

/-- From `taken` on, a reader gives `result`, whatever stands behind the first token of `rest`. -/
def Halts {α : Type} (read : List Lexeme → Reading α) (taken rest : List Lexeme)
    (result : List Lexeme → Reading α) : Prop :=
  ∀ rest', nextToken? rest' = nextToken? rest → read (taken ++ rest') = result rest'

/-- On the lexemes `ts` a reader halts: before what it returns, or at the token that its fault
names, and then it has taken what some phrase begins with. -/
structure HaltsAt {α : Type} (endLine : Nat) (begins : List Lexeme → Prop)
    (read : List Lexeme → Reading α) (ts : List Lexeme) : Prop where
  ok : ∀ a rest, read ts = .ok (a, rest) →
    ∃ taken, ts = taken ++ rest ∧ Halts read taken rest fun rest' => .ok (a, rest')
  error : ∀ line fault found, read ts = .error (.malformed line fault) →
    fault.found? = some found →
    ∃ taken rest, ts = taken ++ rest ∧ nextToken? rest = found ∧ begins taken ∧
      Halts read taken rest fun rest' => failAt endLine fault (fault.reportedAt rest')

namespace HaltsAt

variable {α β : Type} {endLine : Nat} {begins begins' : List Lexeme → Prop}
  {read read' : List Lexeme → Reading α} {ts : List Lexeme}

theorem mono (h : HaltsAt endLine begins read ts) (hb : ∀ ls, begins ls → begins' ls) :
    HaltsAt endLine begins' read ts := by
  refine ⟨h.ok, ?_⟩
  intro line fault found hread hfound
  obtain ⟨taken, rest, hts, hrest, hbegins, hhalts⟩ := h.error line fault found hread hfound
  exact ⟨taken, rest, hts, hrest, hb taken hbegins, hhalts⟩

/-- A reader that goes on behind `pre` as another reader does. -/
theorem behind (pre : List Lexeme) (read' : List Lexeme → Reading α)
    (h : HaltsAt endLine (fun ls => begins (pre ++ ls)) read' ts)
    (hread : ∀ us, nextToken? us = nextToken? ts → read (pre ++ us) = read' us) :
    HaltsAt endLine begins read (pre ++ ts) := by
  have halts {taken rest : List Lexeme} {result : List Lexeme → Reading α}
      (hts : ts = taken ++ rest) (hhalts : Halts read' taken rest result) :
      Halts read (pre ++ taken) rest result := by
    intro rest' hrest'
    have hsame : nextToken? (taken ++ rest') = nextToken? ts := by
      rw [hts, nextToken?_append hrest']
    rw [List.append_assoc, hread _ hsame, hhalts rest' hrest']
  constructor
  · intro a rest hok
    rw [hread ts rfl] at hok
    obtain ⟨taken, hts, hhalts⟩ := h.ok a rest hok
    exact ⟨pre ++ taken, by rw [hts, List.append_assoc], halts hts hhalts⟩
  · intro line fault found herror hfound
    rw [hread ts rfl] at herror
    obtain ⟨taken, rest, hts, hrest, hbegins, hhalts⟩ := h.error line fault found herror hfound
    exact ⟨pre ++ taken, rest, by rw [hts, List.append_assoc], hrest, hbegins, halts hts hhalts⟩

/-- Readers that agree wherever the same token stands next halt at the same token. -/
theorem congr (h : HaltsAt endLine begins read' ts)
    (hread : ∀ us, nextToken? us = nextToken? ts → read us = read' us) :
    HaltsAt endLine begins read ts :=
  behind [] read' h hread

/-- A reader that takes one lexeme and goes on as another reader. -/
theorem cons {l : Lexeme} (read' : List Lexeme → Reading α)
    (h : HaltsAt endLine (fun ls => begins (l :: ls)) read' ts)
    (hread : ∀ us, nextToken? us = nextToken? ts → read (l :: us) = read' us) :
    HaltsAt endLine begins read (l :: ts) :=
  behind [l] read' h hread

/-- A reader that takes nothing. -/
theorem pure (a : α) (hread : ∀ us, nextToken? us = nextToken? ts → read us = .ok (a, us)) :
    HaltsAt endLine begins read ts := by
  constructor
  · intro b rest hok
    rw [hread ts rfl] at hok
    obtain ⟨rfl, rfl⟩ := Prod.mk.inj (Except.ok.inj hok)
    exact ⟨[], rfl, hread⟩
  · intro line fault found herror
    rw [hread ts rfl] at herror
    cases herror

/-- A reader that finds the next token out of place. -/
theorem found (fault : Fault) (hfound : fault.found? = some (nextToken? ts)) (hbegins : begins [])
    (hread : ∀ us, nextToken? us = nextToken? ts →
      read us = failAt endLine fault (fault.reportedAt us)) :
    HaltsAt endLine begins read ts := by
  constructor
  · intro a rest hok
    rw [hread ts rfl] at hok
    cases hok
  · intro line fault' found herror hfound'
    rw [hread ts rfl] at herror
    cases herror
    exact ⟨[], ts, rfl, Option.some.inj (hfound.symm.trans hfound'), hbegins, hread⟩

/-- A fault that names no token. -/
theorem unnamed {line : Nat} {fault : Fault} (hread : read ts = .error (.malformed line fault))
    (hfound : fault.found? = none) : HaltsAt endLine begins read ts := by
  constructor
  · intro a rest hok
    rw [hread] at hok
    cases hok
  · intro line' fault' found herror hfound'
    rw [hread] at herror
    cases herror
    rw [hfound] at hfound'
    cases hfound'

theorem descend {inner : Option Readers} {readIn : Readers → List Lexeme → Reading α}
    (h : ∀ r, inner = some r → HaltsAt endLine begins (readIn r) ts) :
    HaltsAt endLine begins (fun us => descend endLine inner us fun r => readIn r us) ts := by
  cases inner with
  | none => exact unnamed (show _ = failAt endLine .tooDeep ts from rfl) rfl
  | some r => exact (h r rfl).congr fun us _ => rfl

/-- A reader that goes on after another one. How it goes on may depend on what has been read and on
the token at which the first reader has halted. -/
theorem after {whole : List Lexeme → Reading β} {begins' : List Lexeme → Prop}
    (h : HaltsAt endLine begins' read ts)
    (hb : ∀ ls, begins' ls → begins ls)
    (herror : ∀ us err, read us = .error err → whole us = .error err)
    (hok : ∀ a taken rest, ts = taken ++ rest → read (taken ++ rest) = .ok (a, rest) →
      ∃ next, HaltsAt endLine (fun ls => begins (taken ++ ls)) next rest ∧
        ∀ us rest', nextToken? rest' = nextToken? rest → read us = .ok (a, rest') →
          whole us = next rest') :
    HaltsAt endLine begins whole ts := by
  cases hread : read ts with
  | error err =>
    have hwhole := herror ts err hread
    constructor
    · intro b rest hok
      rw [hwhole] at hok
      cases hok
    · intro line fault found hfail hfound
      rw [hwhole] at hfail
      cases hfail
      obtain ⟨taken, rest, hts, hrest, hbegins, hhalts⟩ := h.error line fault found hread hfound
      exact ⟨taken, rest, hts, hrest, hb taken hbegins, fun rest' hrest' =>
        herror _ _ (hhalts rest' hrest')⟩
  | ok r =>
    obtain ⟨a, mid⟩ := r
    obtain ⟨taken, rfl, hhalts⟩ := h.ok a mid hread
    obtain ⟨next, hnext, hwhole⟩ := hok a taken mid rfl hread
    exact behind taken next hnext fun us hus => hwhole _ _ hus (hhalts us hus)

/-- A reader of one expression that becomes part of what is returned. -/
theorem map {inside : List Lexeme → Reading Expr} {begins' : List Lexeme → Prop} (f : Expr → β)
    (h : HaltsAt endLine begins' inside ts) (hb : ∀ ls, begins' ls → begins ls) :
    HaltsAt endLine begins
      (fun us =>
        match inside us with
        | .ok (e, rest) => .ok (f e, rest)
        | .error err => .error err) ts := by
  refine h.after hb (fun us err hread => by rw [hread]) ?_
  intro e taken rest _ _
  refine ⟨fun us => .ok (f e, us), .pure (f e) fun _ _ => rfl, ?_⟩
  intro us rest' _ hread
  rw [hread]

/-- A reader that goes on with what the next token stands for. -/
theorem next? {γ : Type} (meaning : Token → Option γ) (f : List Lexeme → Reading α)
    (g : γ → List Lexeme → Reading α)
    (hread : ∀ us, read us =
      match Script.next? meaning us with
      | none => f us
      | some (a, vs) => g a vs)
    (hnone : Script.next? meaning ts = none → HaltsAt endLine begins f ts)
    (hsome : ∀ l us a, ts = l :: us → meaning l.token = some a →
      HaltsAt endLine (fun ls => begins (l :: ls)) (g a) us) :
    HaltsAt endLine begins read ts := by
  cases hnext : Script.next? meaning ts with
  | none =>
    refine (hnone hnext).congr fun us hus => ?_
    rw [hread us, next?_eq_none_of_eq hus hnext]
  | some r =>
    obtain ⟨a, vs⟩ := r
    obtain ⟨l, rfl, hl⟩ := exists_of_next? hnext
    refine cons (g a) (hsome l vs a rfl hl) fun us _ => ?_
    rw [hread, next?_cons us hl]

end HaltsAt

/-! ## Beginnings of expressions -/

/-- Some lexemes are what an expression of a rung begins with. -/
def BeginsExpr (rung : Rung) (ls : List Lexeme) : Prop :=
  ∃ more e, Derives (.expr rung e) (tokens (ls ++ more))

/-- Some lexemes are what a row of arguments begins with. -/
def BeginsArguments (ls : List Lexeme) : Prop :=
  ∃ more es, Derives (.arguments es) (tokens (ls ++ more))

/-- Some lexemes go on with a chain whose first part is `left`. -/
def BeginsMore (c : Chain) (left : Expr) (ls : List Lexeme) : Prop :=
  ∀ ks, Derives (.expr c.rung left) ks →
    ∃ more e, Derives (.expr c.rung e) (ks ++ tokens (ls ++ more))

theorem BeginsExpr.tighter {r s : Rung} {ls : List Lexeme} (h : BeginsExpr s ls)
    (hrs : r.tighter? = some s) : BeginsExpr r ls := by
  obtain ⟨more, e, hd⟩ := h
  exact ⟨more, e, .tighter hrs hd⟩

/-- A primary expression is an expression of every rung. -/
theorem Derives.of_primary {e : Expr} {ts : List Token} (h : Derives (.expr .primary e) ts)
    (r : Rung) : Derives (.expr r e) ts := by
  have hpower : Derives (.expr .power e) ts := .tighter rfl h
  have hsigned : Derives (.expr .signed e) ts := .tighter rfl hpower
  have hproduct : Derives (.expr .product e) ts := .tighter rfl hsigned
  have hsum : Derives (.expr .sum e) ts := .tighter rfl hproduct
  have hcomparison : Derives (.expr .comparison e) ts := .tighter rfl hsum
  have hnegation : Derives (.expr .negation e) ts := .tighter rfl hcomparison
  have hboth : Derives (.expr .both e) ts := .tighter rfl hnegation
  cases r with
  | primary => exact h
  | power => exact hpower
  | signed => exact hsigned
  | product => exact hproduct
  | sum => exact hsum
  | comparison => exact hcomparison
  | negation => exact hnegation
  | both => exact hboth
  | either => exact .tighter rfl hboth

/-- Every rung has an expression, so nothing is the beginning of one. -/
theorem beginsExpr_nil (r : Rung) : BeginsExpr r [] :=
  ⟨[⟨1, .absent⟩], .literal .absent, Derives.of_primary (.literal rfl) r⟩

theorem Sound.derives {r : Rung} {read : List Lexeme → Reading Expr} (h : Sound r read)
    {taken rest : List Lexeme} {e : Expr} (hread : read (taken ++ rest) = .ok (e, rest)) :
    Derives (.expr r e) (tokens taken) := by
  obtain ⟨us, hus, hd⟩ := h _ _ _ hread
  rw [List.append_cancel_right hus]
  exact hd

/-! ## The readers of a level -/

/-- The readers of a level halt, and what they have taken begins expressions of their rungs. -/
structure Readers.Halt (endLine : Nat) (r : Readers) : Prop where
  chain : ∀ c ts, HaltsAt endLine (BeginsExpr c.rung) (r.chain c) ts
  more : ∀ c left ts, HaltsAt endLine (BeginsMore c left) (r.more c left) ts
  negation : ∀ ts, HaltsAt endLine (BeginsExpr .negation) r.negation ts
  signed : ∀ ts, HaltsAt endLine (BeginsExpr .signed) r.signed ts

theorem Readers.Halt.operand {endLine : Nat} {r : Readers} (h : r.Halt endLine) :
    ∀ (c : Chain) ts, HaltsAt endLine (BeginsExpr c.operandRung) (r.operand c) ts
  | .either => h.chain .both
  | .both => h.negation
  | .sum => h.chain .product
  | .product => h.signed

section Levels

variable {endLine : Nat} {inner : Option Readers}

theorem haltsAt_readClose {α : Type} {begins : List Lexeme → Prop} (a : α) {ts : List Lexeme}
    (hbegins : begins []) : HaltsAt endLine begins (readClose endLine a) ts := by
  by_cases hclose : nextToken? ts = some .closeParen
  · obtain ⟨n, us, rfl⟩ := exists_of_nextToken? hclose
    exact .cons _ (.pure a fun _ _ => rfl) fun _ _ => rfl
  · refine .found (.expectedCloseParen (nextToken? ts)) rfl hbegins fun us hus => ?_
    rw [readClose_of_ne a (hus ▸ hclose), hus]
    rfl

/-- What is read behind an argument and a comma: the other arguments, if the comma does not stand
behind the last one. -/
def readArgumentsBehind (endLine : Nat) (inner : Option Readers) (e : Expr) :
    List Lexeme → Reading (List Expr)
  | ⟨line, .closeParen⟩ :: ts => .ok ([e], ⟨line, .closeParen⟩ :: ts)
  | ts =>
    match readArguments endLine inner (ts.length + 1) ts with
    | .ok (es, ts) => .ok (e :: es, ts)
    | .error err => .error err

/-- What is read behind a comparison: nothing, but no other comparison may follow. -/
def readUnchained (endLine : Nat) (e : Expr) (ts : List Lexeme) : Reading Expr :=
  match next? Token.compare? ts with
  | none => .ok (e, ts)
  | some _ => failAt endLine .chainedComparison ts

/-- What is read behind a sum and a comparing token. -/
def readCompared (endLine : Nat) (inner : Option Readers) (left : Expr) (op : CompareOp)
    (ts : List Lexeme) : Reading Expr :=
  match readSum endLine inner ts with
  | .error err => .error err
  | .ok (right, us) => readUnchained endLine (.compare op left right) us

variable (take : ∀ r, inner = some r → r.Take) (sound : ∀ r, inner = some r → r.Sound)
  (halt : ∀ r, inner = some r → r.Halt endLine)

include halt

theorem haltsAt_readExpr (ts : List Lexeme) :
    HaltsAt endLine (BeginsExpr .either) (readExpr endLine inner) ts :=
  .descend fun r hr => (halt r hr).chain .either ts

include sound

theorem haltsAt_readAtom (ts : List Lexeme) :
    HaltsAt endLine (BeginsExpr .primary) (readAtom endLine inner) ts := by
  cases ts with
  | nil =>
    refine .found (.expectedExpression none) rfl (beginsExpr_nil _) fun us hus => ?_
    cases us with
    | nil => rfl
    | cons l us => cases hus
  | cons l ts =>
    obtain ⟨n, k⟩ := l
    have found (hk : ∀ m us, readAtom endLine inner (⟨m, k⟩ :: us) =
        failAt endLine (.expectedExpression (some k)) us) :
        HaltsAt endLine (BeginsExpr .primary) (readAtom endLine inner) (⟨n, k⟩ :: ts) := by
      refine .found (.expectedExpression (some k)) rfl (beginsExpr_nil _) fun us hus => ?_
      obtain ⟨m, vs, rfl⟩ := exists_of_nextToken? hus
      exact hk m vs
    cases k with
    | openParen =>
      refine .cons (fun us => match readExpr endLine inner us with
        | .ok (e, vs) => readClose endLine e vs
        | .error err => .error err) ?_ fun _ _ => rfl
      refine (haltsAt_readExpr halt ts).after ?_ (fun us err h => by rw [h]) ?_
      · rintro ls ⟨more, e, hd⟩
        exact ⟨more ++ [⟨1, .closeParen⟩], e, by simpa using Derives.paren hd⟩
      · intro e taken rest _ hread
        have hd := (sound_readExpr sound).derives hread
        refine ⟨readClose endLine e, haltsAt_readClose e ⟨[⟨1, .closeParen⟩], e, ?_⟩, ?_⟩
        · simpa using Derives.paren hd
        · intro us rest' _ h
          rw [h]
    | int | float | str | name | bool | absent =>
      exact .cons _ (.pure _ fun _ _ => rfl) fun _ _ => rfl
    | and | or | not | del | arith | compare | assign | augment | closeParen | comma | separator =>
      exact found fun _ _ => rfl

omit sound halt in
include take in
/-- Each argument takes a lexeme, so more arguments than lexemes make no difference. -/
theorem readArguments_enough {count count' : Nat} {ts : List Lexeme} (h : ts.length < count)
    (h' : ts.length < count') :
    readArguments endLine inner count ts = readArguments endLine inner count' ts := by
  induction count generalizing count' ts with
  | zero => exact absurd h (Nat.not_lt_zero _)
  | succ count ih =>
    obtain ⟨count', rfl⟩ : ∃ n, count' = n + 1 := ⟨count' - 1, by omega⟩
    cases he : readExpr endLine inner ts with
    | error err => rw [readArguments, readArguments, he]
    | ok r =>
      obtain ⟨e, rest⟩ := r
      have hlength := (takes_readExpr take _ _ _ he).2
      by_cases hcomma : nextToken? rest = some .comma
      · obtain ⟨n, us, rfl⟩ := exists_of_nextToken? hcomma
        rw [List.length_cons] at hlength
        by_cases hclose : nextToken? us = some .closeParen
        · obtain ⟨m, vs, rfl⟩ := exists_of_nextToken? hclose
          rw [readArguments, readArguments, he]
        · rw [readArguments_comma he hclose, readArguments_comma he hclose,
            ih (show us.length < count by omega) (show us.length < count' by omega)]
      · rw [readArguments_last he hcomma, readArguments_last he hcomma]

omit sound halt in
theorem readArgumentsBehind_of_ne {e : Expr} {ts : List Lexeme}
    (h : nextToken? ts ≠ some .closeParen) :
    readArgumentsBehind endLine inner e ts =
      match readArguments endLine inner (ts.length + 1) ts with
      | .ok (es, rest) => .ok (e :: es, rest)
      | .error err => .error err := by
  rw [readArgumentsBehind]
  rintro n us rfl
  exact h rfl

omit sound halt in
include take in
theorem readArguments_eq_behind {ts us : List Lexeme} {n : Nat} {e : Expr}
    (h : readExpr endLine inner ts = .ok (e, ⟨n, .comma⟩ :: us)) :
    readArguments endLine inner (ts.length + 1) ts = readArgumentsBehind endLine inner e us := by
  by_cases hclose : nextToken? us = some .closeParen
  · obtain ⟨m, vs, rfl⟩ := exists_of_nextToken? hclose
    rw [readArguments, h]
    rfl
  · have hlength : us.length < ts.length := Nat.lt_of_succ_lt (takes_readExpr take _ _ _ h).2
    have hsame : readArguments endLine inner ts.length us = _ :=
      readArguments_enough take hlength (Nat.lt_succ_self us.length)
    cases hus : readArguments endLine inner (us.length + 1) us with
    | ok r => rw [readArguments_comma h hclose, readArgumentsBehind_of_ne hclose, hsame, hus]
    | error err => rw [readArguments_comma h hclose, readArgumentsBehind_of_ne hclose, hsame, hus]

include take

/-- Arguments are read in a row, by induction on the lexemes that are left for them. -/
theorem haltsAt_readArguments (ts : List Lexeme) :
    HaltsAt endLine BeginsArguments
      (fun us => readArguments endLine inner (us.length + 1) us) ts := by
  induction hlength : ts.length using Nat.strong_induction_on generalizing ts with
  | _ length ih =>
    refine (haltsAt_readExpr halt ts).after ?_ (fun us err h => by rw [readArguments, h]) ?_
    · rintro ls ⟨more, e, hd⟩
      exact ⟨more, [e], .lastArgument hd⟩
    · intro e taken rest hts hread
      have hd := (sound_readExpr sound).derives hread
      by_cases hcomma : nextToken? rest = some .comma
      · obtain ⟨n, vs, rfl⟩ := exists_of_nextToken? hcomma
        refine ⟨fun us => readArgumentsBehind endLine inner e us.tail, ?_, ?_⟩
        · refine .cons (readArgumentsBehind endLine inner e) ?_ fun _ _ => rfl
          by_cases hclose : nextToken? vs = some .closeParen
          · -- the comma stands behind the last argument
            refine .pure [e] fun us hus => ?_
            obtain ⟨m, ws, rfl⟩ := exists_of_nextToken? (hus.trans hclose)
            rfl
          · have hvs : vs.length < length := by
              simp only [hts, List.length_append, List.length_cons] at hlength
              omega
            refine .congr (.after (ih vs.length hvs vs rfl) ?_ (fun us err h => by rw [h]) ?_)
              fun us hus => readArgumentsBehind_of_ne (hus ▸ hclose)
            · rintro ls ⟨more, es, hds⟩
              exact ⟨more, e :: es, by simpa using Derives.argument hd hds⟩
            · intro es taken' rest' _ _
              refine ⟨fun us => .ok (e :: es, us), .pure _ fun _ _ => rfl, fun us rest'' _ h => ?_⟩
              rw [h]
        · intro us rest' hrest' h
          obtain ⟨m, ws, rfl⟩ := exists_of_nextToken? hrest'
          exact readArguments_eq_behind take h
      · refine ⟨fun us => .ok ([e], us), .pure _ fun _ _ => rfl, ?_⟩
        intro us rest' hrest' h
        exact readArguments_last h (hrest' ▸ hcomma)

theorem haltsAt_readCall (ts : List Lexeme) :
    HaltsAt endLine (BeginsExpr .primary) (readCall endLine inner) ts := by
  by_cases hcall : ∃ n f m us, ts = ⟨n, .name f⟩ :: ⟨m, .openParen⟩ :: us
  · obtain ⟨n, f, m, us, rfl⟩ := hcall
    by_cases hclose : nextToken? us = some .closeParen
    · obtain ⟨i, vs, rfl⟩ := exists_of_nextToken? hclose
      exact .behind [⟨n, .name f⟩, ⟨m, .openParen⟩, ⟨i, .closeParen⟩] _
        (.pure (.call f []) fun _ _ => rfl) fun _ _ => rfl
    · refine .behind [⟨n, .name f⟩, ⟨m, .openParen⟩]
        (fun us => match readArguments endLine inner (us.length + 1) us with
          | .ok (args, vs) => readClose endLine (.call f args) vs
          | .error err => .error err)
        ((haltsAt_readArguments take sound halt us).after ?_ (fun us err h => by rw [h]) ?_)
        fun vs hvs => readCall_arguments (hvs ▸ hclose)
      · rintro ls ⟨more, args, hd⟩
        exact ⟨more ++ [⟨1, .closeParen⟩], _, by simpa using Derives.call (.inl rfl) hd⟩
      · intro args taken rest _ hread
        obtain ⟨vs, trail, hvs, htrail, hd⟩ :=
          sound_readArguments take sound _ _ _ _ (Nat.lt_succ_self _) hread
        obtain rfl : taken = vs ++ trail := List.append_cancel_right (by simpa using hvs)
        refine ⟨readClose endLine (.call f args), haltsAt_readClose _ ?_, ?_⟩
        · exact ⟨[⟨1, .closeParen⟩], _, by simpa using Derives.call htrail hd⟩
        · intro ws rest' _ h
          rw [h]
  · by_cases hname : ∃ f, nextToken? ts = some (.name f)
    · obtain ⟨f, hf⟩ := hname
      obtain ⟨n, us, rfl⟩ := exists_of_nextToken? hf
      refine .cons _ (.pure (.name f) fun vs hvs => ?_) fun _ _ => rfl
      rw [readCall_atom]
      · rfl
      · rintro ⟨i, g, m, ws, hws⟩
        obtain ⟨-, rfl⟩ := List.cons.inj hws
        obtain ⟨j, xs, rfl⟩ := exists_of_nextToken? hvs.symm
        exact hcall ⟨_, _, _, _, rfl⟩
    · refine (haltsAt_readAtom sound halt ts).congr fun us hus => readCall_atom ?_
      rintro ⟨n, f, m, vs, rfl⟩
      exact hname ⟨f, hus.symm⟩

theorem haltsAt_readPower (ts : List Lexeme) :
    HaltsAt endLine (BeginsExpr .power) (readPower endLine inner) ts := by
  refine (haltsAt_readCall take sound halt ts).after (fun ls h => h.tighter rfl)
    (fun us err h => by rw [readPower, h]) ?_
  intro base taken rest _ hread
  have hbase := (sound_readCall take sound).derives hread
  by_cases hpow : nextToken? rest = some (.arith .pow)
  · obtain ⟨n, vs, rfl⟩ := exists_of_nextToken? hpow
    refine ⟨fun us => descend endLine inner us.tail fun r =>
      match r.signed us.tail with
      | .ok (exponent, ws) => .ok (.arith .pow base exponent, ws)
      | .error err => .error err, ?_, ?_⟩
    · refine .cons _ (.descend fun r hr => ((halt r hr).signed vs).map (Expr.arith .pow base) ?_)
        fun _ _ => rfl
      rintro ls ⟨more, e, hd⟩
      exact ⟨more, _, by simpa using Derives.power hbase hd⟩
    · intro us rest' hrest' h
      obtain ⟨m, ws, rfl⟩ := exists_of_nextToken? hrest'
      rw [readPower, h]
      rfl
  · refine ⟨fun us => .ok (base, us), .pure base fun _ _ => rfl, ?_⟩
    intro us rest' hrest' h
    exact readPower_of_ne h (hrest' ▸ hpow)

theorem haltsAt_readSigned (ts : List Lexeme) :
    HaltsAt endLine (BeginsExpr .signed) (readSigned endLine inner) ts := by
  refine .next? Token.sign? (readPower endLine inner) (fun op us =>
    Script.descend endLine inner us fun r =>
      match r.signed us with
      | .ok (e, vs) => .ok (.sign op e, vs)
      | .error err => .error err) (fun us => ?_) (fun _ => ?_) fun l us op _ hl => ?_
  · rw [readSigned]
    cases next? Token.sign? us <;> rfl
  · exact (haltsAt_readPower take sound halt ts).mono fun ls h => h.tighter rfl
  · refine .descend fun r hr => ((halt r hr).signed us).map (Expr.sign op) ?_
    rintro ls ⟨more, e, hd⟩
    refine ⟨more, .sign op e, ?_⟩
    rw [List.cons_append, tokens_cons, token_of_sign? hl]
    exact .sign hd

omit take in
theorem haltsAt_readMore (c : Chain) (left : Expr) (ts : List Lexeme) :
    HaltsAt endLine (BeginsMore c left) (readMore endLine inner c left) ts := by
  refine .next? c.join? (fun us => .ok (left, us)) (fun join us =>
    Script.descend endLine inner us fun r =>
      match r.operand c us with
      | .ok (right, vs) => r.more c (join left right) vs
      | .error err => .error err)
    (fun us => ?_) (fun _ => .pure left fun _ _ => rfl) fun l us join _ hl => ?_
  · rw [readMore]
    cases next? c.join? us <;> rfl
  · refine .descend fun r hr => ((halt r hr).operand c us).after ?_ (fun vs err h => by rw [h]) ?_
    · rintro ls ⟨more, b, hb⟩ ks hks
      exact ⟨more, join left b, by simpa using derives_join hl hks hb⟩
    · intro b taken rest _ hread
      have hb := ((sound r hr).operand c).derives hread
      refine ⟨r.more c (join left b), ((halt r hr).more c _ rest).mono ?_, ?_⟩
      · intro ls hls ks hks
        obtain ⟨more, e, hd⟩ := hls _ (derives_join hl hks hb)
        exact ⟨more, e, by simpa using hd⟩
      · intro vs rest' _ h
        rw [h]

omit take in
/-- A chain is its first operand and the rest. -/
theorem haltsAt_chain (c : Chain) {read whole : List Lexeme → Reading Expr} {ts : List Lexeme}
    (h : HaltsAt endLine (BeginsExpr c.operandRung) read ts) (hread : Sound c.operandRung read)
    (hwhole : ∀ us, whole us =
      match read us with
      | .ok (e, vs) => readMore endLine inner c e vs
      | .error err => .error err) :
    HaltsAt endLine (BeginsExpr c.rung) whole ts := by
  refine h.after (fun ls hls => hls.tighter (tighter?_rung c))
    (fun us err herr => by rw [hwhole, herr]) ?_
  intro a taken rest _ ha
  have hd := Derives.tighter (tighter?_rung c) (hread.derives ha)
  refine ⟨readMore endLine inner c a, (haltsAt_readMore sound halt c a rest).mono ?_, ?_⟩
  · intro ls hls
    obtain ⟨more, e, he⟩ := hls _ hd
    exact ⟨more, e, by simpa using he⟩
  · intro us rest' _ hus
    rw [hwhole, hus]

theorem haltsAt_readProduct (ts : List Lexeme) :
    HaltsAt endLine (BeginsExpr .product) (readProduct endLine inner) ts :=
  haltsAt_chain sound halt .product (haltsAt_readSigned take sound halt ts)
    (sound_readSigned take sound) fun _ => rfl

theorem haltsAt_readSum (ts : List Lexeme) :
    HaltsAt endLine (BeginsExpr .sum) (readSum endLine inner) ts :=
  haltsAt_chain sound halt .sum (haltsAt_readProduct take sound halt ts)
    (sound_readProduct take sound) fun _ => rfl

omit take sound halt in
theorem readComparison_eq {ts rest : List Lexeme} {left : Expr}
    (h : readSum endLine inner ts = .ok (left, rest)) :
    readComparison endLine inner ts =
      match next? Token.compare? rest with
      | none => .ok (left, rest)
      | some (op, us) => readCompared endLine inner left op us := by
  rw [readComparison, h]
  dsimp only
  cases next? Token.compare? rest with
  | none => rfl
  | some r =>
    obtain ⟨op, us⟩ := r
    dsimp only
    rw [readCompared]
    cases readSum endLine inner us with
    | error err => rfl
    | ok q =>
      obtain ⟨right, vs⟩ := q
      dsimp only
      cases hvs : next? Token.compare? vs with
      | none => rw [readUnchained, hvs]
      | some r => rw [readUnchained, hvs]

omit take sound halt in
theorem haltsAt_readUnchained {begins : List Lexeme → Prop} (e : Expr) (ts : List Lexeme) :
    HaltsAt endLine begins (readUnchained endLine e) ts := by
  cases hnext : next? Token.compare? ts with
  | none =>
    refine .pure e fun us hus => ?_
    rw [readUnchained, next?_eq_none_of_eq hus hnext]
  | some r =>
    have hread : readUnchained endLine e ts = failAt endLine .chainedComparison ts := by
      rw [readUnchained, hnext]
    exact .unnamed hread rfl

theorem haltsAt_readComparison (ts : List Lexeme) :
    HaltsAt endLine (BeginsExpr .comparison) (readComparison endLine inner) ts := by
  refine (haltsAt_readSum take sound halt ts).after (fun ls h => h.tighter rfl)
    (fun us err h => by rw [readComparison, h]) ?_
  intro left taken rest _ hread
  have hleft := (sound_readSum take sound).derives hread
  refine ⟨fun us =>
    match next? Token.compare? us with
    | none => .ok (left, us)
    | some (op, vs) => readCompared endLine inner left op vs, ?_,
    fun us rest' _ h => readComparison_eq h⟩
  refine .next? Token.compare? (fun us => .ok (left, us)) (readCompared endLine inner left)
    (fun us => ?_) (fun _ => .pure left fun _ _ => rfl) fun l us op _ hl => ?_
  · cases next? Token.compare? us <;> rfl
  refine (haltsAt_readSum take sound halt us).after ?_ (fun vs err h => by rw [readCompared, h]) ?_
  · rintro ls ⟨more, b, hb⟩
    refine ⟨more, .compare op left b, ?_⟩
    rw [List.append_assoc, tokens_append, List.cons_append, tokens_cons, token_of_compare? hl]
    exact .compare hleft hb
  · intro right taken' rest' _ _
    refine ⟨readUnchained endLine (.compare op left right), haltsAt_readUnchained _ rest', ?_⟩
    intro vs rest'' _ h
    rw [readCompared, h]

theorem haltsAt_readNegation (ts : List Lexeme) :
    HaltsAt endLine (BeginsExpr .negation) (readNegation endLine inner) ts := by
  by_cases hnot : nextToken? ts = some .not
  · obtain ⟨n, us, rfl⟩ := exists_of_nextToken? hnot
    refine .cons _ (.descend fun r hr => ((halt r hr).negation us).map Expr.not ?_) fun _ _ => rfl
    rintro ls ⟨more, e, hd⟩
    exact ⟨more, .not e, .not hd⟩
  · refine .congr ((haltsAt_readComparison take sound halt ts).mono fun ls h => h.tighter rfl) ?_
    intro us hus
    exact readNegation_of_ne (hus ▸ hnot)

theorem haltsAt_readBoth (ts : List Lexeme) :
    HaltsAt endLine (BeginsExpr .both) (readBoth endLine inner) ts :=
  haltsAt_chain sound halt .both (haltsAt_readNegation take sound halt ts)
    (sound_readNegation take sound) fun _ => rfl

theorem haltsAt_readEither (ts : List Lexeme) :
    HaltsAt endLine (BeginsExpr .either) (readEither endLine inner) ts :=
  haltsAt_chain sound halt .either (haltsAt_readBoth take sound halt ts)
    (sound_readBoth take sound) fun _ => rfl

theorem Readers.halt_around : (Readers.around endLine inner).Halt endLine where
  chain
    | .either => haltsAt_readEither take sound halt
    | .both => haltsAt_readBoth take sound halt
    | .sum => haltsAt_readSum take sound halt
    | .product => haltsAt_readProduct take sound halt
  more := haltsAt_readMore sound halt
  negation := haltsAt_readNegation take sound halt
  signed := haltsAt_readSigned take sound halt

end Levels

/-- The readers of every level halt. -/
theorem readers_halt (endLine levels : Nat) :
    ∀ r, readers endLine levels = some r → r.Halt endLine := by
  induction levels with
  | zero => simp [readers]
  | succ levels ih =>
    intro r h
    obtain rfl := Option.some.inj h
    exact Readers.halt_around (readers_take endLine levels) (readers_sound endLine levels) ih

end CalcDoc.Script
