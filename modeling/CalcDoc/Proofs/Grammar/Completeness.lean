import CalcDoc.Proofs.Grammar.Rungs
import Mathlib.Order.Filter.AtTopBot.Basic

/-!
# The readers reach all of the grammar

Every derivation is read, if there are enough levels of nesting and nothing follows that the phrase
could go on with.

- `Reads`, `ReadsMore`: what the reader of a rung, and of the rest of a chain, reads with enough
  levels.
- `Complete`: what has to be shown of each production. A chain is read with all that follows it, so
  that the left operand of a longer chain can be read first.
- `complete_of_derives`: the induction over derivations.
- `readExpr_of_derives`: so are expressions read.
-/

namespace CalcDoc.Script

open Filter

/-- What holds one level further out holds with enough levels. -/
theorem eventually_of_succ {P : Nat → Prop} (h : ∀ᶠ n in atTop, P (n + 1)) :
    ∀ᶠ n in atTop, P n := by
  obtain ⟨N, hN⟩ := eventually_atTop.1 h
  refine eventually_atTop.2 ⟨N + 1, fun n hn => ?_⟩
  obtain ⟨m, rfl⟩ : ∃ m, n = m + 1 := ⟨n - 1, by omega⟩
  exact hN m (Nat.le_of_succ_le_succ hn)

section Readings

variable (endLine : Nat)

/-- With enough levels the reader of a rung reads an expression and leaves the rest. -/
def Reads (r : Rung) (ts : List Lexeme) (e : Expr) (rest : List Lexeme) : Prop :=
  ∀ᶠ n in atTop, r.read endLine (readers endLine n) ts = .ok (e, rest)

/-- With enough levels the rest of a chain after `left` is read. -/
def ReadsMore (c : Chain) (left : Expr) (ts : List Lexeme) (e : Expr) (rest : List Lexeme) :
    Prop :=
  ∀ᶠ n in atTop, readMore endLine (readers endLine n) c left ts = .ok (e, rest)

variable {endLine} {ts us mid rest rest' : List Lexeme} {a b e e' : Expr} {l : Lexeme}

theorem Reads.tighter {r s : Rung} (h : Reads endLine s ts e rest) (hrs : r.tighter? = some s)
    (hend : Ends r rest) : Reads endLine r ts e rest := by
  filter_upwards [h] with n hn
  exact read_tighter hrs hn hend

theorem Reads.chain {c : Chain} (ha : Reads endLine c.operandRung ts a mid)
    (hmore : ReadsMore endLine c a mid e rest) : Reads endLine c.rung ts e rest := by
  filter_upwards [ha, hmore] with n ha hmore
  rw [read_chain c ha, hmore]

theorem ReadsMore.of_ends {c : Chain} (hend : Ends c.rung rest) :
    ReadsMore endLine c a rest a rest :=
  .of_forall fun _ => readMore_of_ends c a hend

theorem ReadsMore.join {c : Chain} {join : Expr → Expr → Expr}
    (hl : c.join? l.token = some join) (hb : Reads endLine c.operandRung us b mid)
    (hmore : ReadsMore endLine c (join a b) mid e rest) :
    ReadsMore endLine c a (l :: us) e rest := by
  refine eventually_of_succ ?_
  filter_upwards [hb, hmore] with n hb hmore
  rw [readMore_join hl hb, hmore]

/-- Expressions in parentheses or calls are read one level further in. -/
theorem Reads.readExpr (h : Reads endLine .either ts e rest) :
    ∀ᶠ n in atTop, readExpr endLine (readers endLine n) ts = .ok (e, rest) :=
  eventually_of_succ h

/-! ## What is to be shown of a production -/

/-- The chain whose expressions a rung holds, if it is the rung of a chain. -/
def Rung.chain? : Rung → Option Chain
  | .either => some .either
  | .both => some .both
  | .sum => some .sum
  | .product => some .product
  | _ => none

theorem eq_rung_of_chain? {r : Rung} {c : Chain} (h : r.chain? = some c) : r = c.rung := by
  cases r <;> cases h <;> rfl

@[simp] theorem chain?_rung (c : Chain) : c.rung.chain? = some c := by
  cases c <;> rfl

/-- How a reading ends that has come to the end of an expression of a rung: a chain may still go
on, all else is finished. -/
def Finishes (endLine : Nat) (r : Rung) (e : Expr) (rest : List Lexeme) (e' : Expr)
    (rest' : List Lexeme) : Prop :=
  match r.chain? with
  | some c => Ends c.operandRung rest ∧ ReadsMore endLine c e rest e' rest'
  | none => Ends r rest ∧ e' = e ∧ rest' = rest

/-- The lexemes of a phrase are read as that phrase, whatever follows that does not continue it. -/
def Complete (endLine : Nat) : Phrase → List Token → Prop
  | .expr r e, ts => ∀ ls, tokens ls = ts → ∀ rest e' rest',
      Finishes endLine r e rest e' rest' → Reads endLine r (ls ++ rest) e' rest'
  | .arguments es, ts => ∀ ls, tokens ls = ts → ∀ trail, trail = [] ∨ trail = [.comma] →
      ∀ ms, tokens ms = trail → ∀ m rest count, ls.length < count →
        ∀ᶠ n in atTop, readArguments endLine (readers endLine n) count
          (ls ++ (ms ++ ⟨m, .closeParen⟩ :: rest)) = .ok (es, ⟨m, .closeParen⟩ :: rest)

theorem finishes_of_ends {r : Rung} (hend : Ends r rest) :
    Finishes endLine r e rest e rest := by
  unfold Finishes
  split
  · next c hc =>
    obtain rfl := eq_rung_of_chain? hc
    exact ⟨hend.tighter (tighter?_rung c), .of_ends hend⟩
  · exact ⟨hend, rfl, rfl⟩

/-- Where nothing continues an expression, it is read as it is. -/
theorem Complete.reads {r : Rung} {ls : List Lexeme} (h : Complete endLine (.expr r e) (tokens ls))
    (hend : Ends r rest) : Reads endLine r (ls ++ rest) e rest :=
  h ls rfl rest e rest (finishes_of_ends hend)

/-- The lexemes of two phrases with a token between them. -/
theorem exists_of_tokens_append_cons {ls : List Lexeme} {ts us : List Token} {k : Token}
    (h : tokens ls = ts ++ k :: us) :
    ∃ ls₁ l ls₂, ls = ls₁ ++ l :: ls₂ ∧ tokens ls₁ = ts ∧ l.token = k ∧ tokens ls₂ = us := by
  obtain ⟨ls₁, rest, rfl, h₁, h₂⟩ := List.map_eq_append_iff.1 h
  obtain ⟨l, ls₂, rfl, hl, h₃⟩ := List.map_eq_cons_iff.1 h₂
  exact ⟨ls₁, l, ls₂, rfl, h₁, hl, h₃⟩

/-! ## The productions -/

/-- A chain that a joining token makes longer. The left operand is read together with the token and
all that follows it. -/
theorem Complete.join {c : Chain} {k : Token} {join : Expr → Expr → Expr} {ts us : List Token}
    (hk : c.join? k = some join) (ha : Complete endLine (.expr c.rung a) ts)
    (hb : Complete endLine (.expr c.operandRung b) us) :
    Complete endLine (.expr c.rung (join a b)) (ts ++ k :: us) := by
  intro ls hls rest e' rest' hfin
  obtain ⟨ls₁, l, ls₂, rfl, rfl, rfl, rfl⟩ := exists_of_tokens_append_cons hls
  simp only [Finishes, chain?_rung] at hfin
  obtain ⟨hend, hmore⟩ := hfin
  rw [List.append_assoc, List.cons_append]
  -- for the left operand, the token and what follows it are the rest of its own chain
  refine ha ls₁ rfl _ e' rest' ?_
  simp only [Finishes, chain?_rung]
  refine ⟨ends_cons fun s hs => ?_, .join hk (hb.reads hend) hmore⟩
  rw [rung?_of_join? hk] at hs
  obtain rfl := Option.some.inj hs
  rw [tightness_of_tighter? (tighter?_rung c)]
  exact Nat.lt_succ_self _

theorem complete_tighter {r s : Rung} {ts : List Token} (hrs : r.tighter? = some s)
    (h : Complete endLine (.expr s e) ts) : Complete endLine (.expr r e) ts := by
  intro ls hls rest e' rest' hfin
  subst hls
  unfold Finishes at hfin
  split at hfin
  · next c hc =>
    -- the tighter expression is the first operand of the chain
    obtain rfl := eq_rung_of_chain? hc
    obtain rfl : c.operandRung = s := Option.some.inj ((tighter?_rung c).symm.trans hrs)
    exact .chain (h.reads hfin.1) hfin.2
  · obtain ⟨hend, rfl, rfl⟩ := hfin
    exact (h.reads (hend.tighter hrs)).tighter hrs hend

theorem complete_not {ts : List Token} (h : Complete endLine (.expr .negation e) ts) :
    Complete endLine (.expr .negation (.not e)) (.not :: ts) := by
  rintro ls hls rest e' rest' ⟨hend, rfl, rfl⟩
  obtain ⟨⟨n, k⟩, ls, rfl, rfl, rfl⟩ := List.map_eq_cons_iff.1 hls
  refine eventually_of_succ ?_
  filter_upwards [h.reads hend] with m hm
  exact readNegation_not (n := n) hm

theorem complete_compare {op : CompareOp} {ts us : List Token}
    (ha : Complete endLine (.expr .sum a) ts) (hb : Complete endLine (.expr .sum b) us) :
    Complete endLine (.expr .comparison (.compare op a b)) (ts ++ .compare op :: us) := by
  rintro ls hls rest e' rest' ⟨hend, rfl, rfl⟩
  obtain ⟨ls₁, ⟨n, k⟩, ls₂, rfl, rfl, rfl, rfl⟩ := exists_of_tokens_append_cons hls
  have hleft : Ends .sum (⟨n, .compare op⟩ :: (ls₂ ++ rest')) :=
    ends_cons fun s hs => by cases hs; decide
  filter_upwards [ha.reads hleft, hb.reads (hend.mono (by decide))] with m hma hmb
  rw [List.append_assoc]
  exact readComparison_of_readSums hma rfl hmb hend

theorem complete_sign {op : SignOp} {ts : List Token}
    (h : Complete endLine (.expr .signed e) ts) :
    Complete endLine (.expr .signed (.sign op e)) (.arith op.written :: ts) := by
  rintro ls hls rest e' rest' ⟨hend, rfl, rfl⟩
  obtain ⟨⟨n, k⟩, ls, rfl, rfl, rfl⟩ := List.map_eq_cons_iff.1 hls
  refine eventually_of_succ ?_
  filter_upwards [h.reads hend] with m hm
  exact readSigned_sign (n := n) hm

theorem complete_power {ts us : List Token} (ha : Complete endLine (.expr .primary a) ts)
    (hb : Complete endLine (.expr .signed b) us) :
    Complete endLine (.expr .power (.arith .pow a b)) (ts ++ .arith .pow :: us) := by
  rintro ls hls rest e' rest' ⟨hend, rfl, rfl⟩
  obtain ⟨ls₁, ⟨n, k⟩, ls₂, rfl, rfl, rfl, rfl⟩ := exists_of_tokens_append_cons hls
  have hbase : Ends .primary (⟨n, .arith .pow⟩ :: (ls₂ ++ rest')) :=
    ends_cons fun s hs => by cases hs; decide
  have hcall := ha.reads hbase
  -- the base is read on this level, the exponent one level further in
  refine eventually_of_succ ?_
  filter_upwards [(tendsto_add_atTop_nat 1).eventually hcall, hb.reads (ends_signed hend)]
    with m hma hmb
  rw [List.append_assoc]
  exact readPower_of_pow hma hmb

theorem complete_literal {k : Token} {v : Value} (hk : k.literal? = some v) :
    Complete endLine (.expr .primary (.literal v)) [k] := by
  rintro ls hls rest e' rest' ⟨hend, rfl, rfl⟩
  obtain ⟨⟨n, k⟩, rfl, rfl⟩ := List.map_eq_singleton_iff.1 hls
  exact .of_forall fun _ => readCall_literal hk

theorem complete_name {x : String} : Complete endLine (.expr .primary (.name x)) [.name x] := by
  rintro ls hls rest e' rest' ⟨hend, rfl, rfl⟩
  obtain ⟨⟨n, k⟩, rfl, rfl⟩ := List.map_eq_singleton_iff.1 hls
  exact .of_forall fun _ => readCall_name hend

theorem complete_paren {ts : List Token} (h : Complete endLine (.expr .either e) ts) :
    Complete endLine (.expr .primary e) (.openParen :: (ts ++ [.closeParen])) := by
  rintro ls hls rest e' rest' ⟨hend, rfl, rfl⟩
  obtain ⟨⟨n, k⟩, ls, rfl, rfl, hinner⟩ := List.map_eq_cons_iff.1 hls
  obtain ⟨ls, ⟨m, k⟩, ls', rfl, rfl, rfl, hnil⟩ := exists_of_tokens_append_cons hinner
  obtain rfl : ls' = [] := List.map_eq_nil_iff.1 hnil
  have hinside : Ends .either (⟨m, .closeParen⟩ :: rest') := ends_of_rung? rfl
  rw [List.cons_append, List.append_assoc]
  filter_upwards [(h.reads hinside).readExpr] with i hi
  exact readCall_paren (n := n) hi

theorem complete_callEmpty {f : String} :
    Complete endLine (.expr .primary (.call f [])) [.name f, .openParen, .closeParen] := by
  rintro ls hls rest e' rest' ⟨hend, rfl, rfl⟩
  obtain ⟨⟨n, k⟩, ls, rfl, rfl, hopen⟩ := List.map_eq_cons_iff.1 hls
  obtain ⟨⟨m, k⟩, ls, rfl, rfl, hclose⟩ := List.map_eq_cons_iff.1 hopen
  obtain ⟨⟨i, k⟩, rfl, rfl⟩ := List.map_eq_singleton_iff.1 hclose
  exact .of_forall fun _ => rfl

theorem complete_call {f : String} {args : List Expr} {ts trail : List Token}
    (htrail : trail = [] ∨ trail = [.comma]) (hd : Derives (.arguments args) ts)
    (h : Complete endLine (.arguments args) ts) :
    Complete endLine (.expr .primary (.call f args))
      (.name f :: .openParen :: (ts ++ (trail ++ [.closeParen]))) := by
  rintro ls hls rest e' rest' ⟨hend, rfl, rfl⟩
  obtain ⟨⟨n, k⟩, ls, rfl, rfl, hopen⟩ := List.map_eq_cons_iff.1 hls
  obtain ⟨⟨m, k⟩, ls, rfl, rfl, hinner⟩ := List.map_eq_cons_iff.1 hopen
  obtain ⟨ls, ls', rfl, rfl, hclose⟩ := List.map_eq_append_iff.1 hinner
  obtain ⟨ms, ⟨i, k⟩, ls', rfl, rfl, rfl, hnil⟩ := exists_of_tokens_append_cons hclose
  obtain rfl : ls' = [] := List.map_eq_nil_iff.1 hnil
  have hnext := hd.nextToken?_ne_closeParen (ms ++ ⟨i, .closeParen⟩ :: rest')
  -- every argument has a lexeme, so as many as there are lexemes are enough
  have hcount : ls.length < (ls ++ (ms ++ ⟨i, .closeParen⟩ :: rest')).length + 1 := by
    rw [List.length_append]
    omega
  filter_upwards [h ls rfl _ htrail ms rfl i rest' _ hcount] with j hj
  have happend : (⟨n, .name f⟩ :: ⟨m, .openParen⟩ ::
      (ls ++ (ms ++ [⟨i, .closeParen⟩]))) ++ rest' =
      ⟨n, .name f⟩ :: ⟨m, .openParen⟩ :: (ls ++ (ms ++ ⟨i, .closeParen⟩ :: rest')) := by simp
  rw [happend, Rung.read]
  exact readCall_of_readArguments hnext hj

theorem complete_lastArgument {ts : List Token} (h : Complete endLine (.expr .either e) ts) :
    Complete endLine (.arguments [e]) ts := by
  intro ls hls trail htrail ms hms m rest count hcount
  subst hls
  obtain ⟨count, rfl⟩ : ∃ c, count = c + 1 := ⟨count - 1, by omega⟩
  rcases htrail with rfl | rfl
  · obtain rfl : ms = [] := List.map_eq_nil_iff.1 hms
    have hend : Ends .either (⟨m, .closeParen⟩ :: rest) := ends_of_rung? rfl
    filter_upwards [(h.reads hend).readExpr] with i hi
    exact readArguments_last hi nofun
  · obtain ⟨⟨n, k⟩, rfl, rfl⟩ := List.map_eq_singleton_iff.1 hms
    have hend : Ends .either (⟨n, .comma⟩ :: ⟨m, .closeParen⟩ :: rest) := ends_of_rung? rfl
    filter_upwards [(h.reads hend).readExpr] with i hi
    simp [readArguments, hi]

/-- A comma that no closing parenthesis follows leads to another argument. -/
theorem readArguments_comma {inner : Option Readers} {n count : Nat}
    (h : readExpr endLine inner ts = .ok (e, ⟨n, .comma⟩ :: us))
    (hus : nextToken? us ≠ some .closeParen) :
    readArguments endLine inner (count + 1) ts =
      match readArguments endLine inner count us with
      | .ok (es, rest) => .ok (e :: es, rest)
      | .error err => .error err := by
  rw [readArguments, h]
  split
  · next hx => cases hx
  · next hx =>
    obtain ⟨rfl, hcons⟩ := Prod.mk.inj (Except.ok.inj hx)
    obtain ⟨-, rfl⟩ := List.cons.inj hcons
    exact absurd rfl hus
  · next hx =>
    obtain ⟨rfl, hcons⟩ := Prod.mk.inj (Except.ok.inj hx)
    obtain ⟨-, rfl⟩ := List.cons.inj hcons
    rfl
  · next hcomma hx =>
    obtain ⟨rfl, rfl⟩ := Prod.mk.inj (Except.ok.inj hx)
    exact absurd rfl (hcomma _ _)

theorem complete_argument {es : List Expr} {ts us : List Token}
    (hd : Derives (.arguments es) us) (h : Complete endLine (.expr .either e) ts)
    (hs : Complete endLine (.arguments es) us) :
    Complete endLine (.arguments (e :: es)) (ts ++ .comma :: us) := by
  intro ls hls trail htrail ms hms m rest count hcount
  obtain ⟨ls₁, ⟨n, k⟩, ls₂, rfl, rfl, rfl, rfl⟩ := exists_of_tokens_append_cons hls
  obtain ⟨count, rfl⟩ : ∃ c, count = c + 1 := ⟨count - 1, by omega⟩
  have hcount' : ls₂.length < count := by
    simp only [List.length_append, List.length_cons] at hcount
    omega
  have hend : Ends .either (⟨n, .comma⟩ :: (ls₂ ++ (ms ++ ⟨m, .closeParen⟩ :: rest))) :=
    ends_of_rung? rfl
  filter_upwards [(h.reads hend).readExpr, hs ls₂ rfl trail htrail ms hms m rest count hcount']
    with i hi his
  have hnext := hd.nextToken?_ne_closeParen (ms ++ ⟨m, .closeParen⟩ :: rest)
  rw [List.append_assoc, List.cons_append, readArguments_comma hi hnext, his]

/-- Every derivation is read with enough levels. -/
theorem complete_of_derives {φ : Phrase} {ts : List Token} (h : Derives φ ts) :
    Complete endLine φ ts := by
  induction h with
  | or _ _ iha ihb => exact .join (c := .either) rfl iha ihb
  | and _ _ iha ihb => exact .join (c := .both) rfl iha ihb
  | not _ ih => exact complete_not ih
  | compare _ _ iha ihb => exact complete_compare iha ihb
  | sum hop _ _ iha ihb => rcases hop with rfl | rfl <;> exact .join (c := .sum) rfl iha ihb
  | product hop _ _ iha ihb =>
    rcases hop with rfl | rfl | rfl | rfl <;> exact .join (c := .product) rfl iha ihb
  | sign _ ih => exact complete_sign ih
  | power _ _ iha ihb => exact complete_power iha ihb
  | tighter hrs _ ih => exact complete_tighter hrs ih
  | literal hk => exact complete_literal hk
  | name => exact complete_name
  | paren _ ih => exact complete_paren ih
  | callEmpty => exact complete_callEmpty
  | call htrail hd ih => exact complete_call htrail hd ih
  | lastArgument _ ih => exact complete_lastArgument ih
  | argument _ hd ihe ihes => exact complete_argument hd ihe ihes

/-- An expression that a statement or the end follows is read with enough levels. -/
theorem readExpr_of_derives {ls : List Lexeme} (h : Derives (.expr .either e) (tokens ls))
    (hend : Ends .either rest) :
    ∀ᶠ n in atTop, readExpr endLine (readers endLine n) (ls ++ rest) = .ok (e, rest) :=
  ((complete_of_derives h).reads hend).readExpr

end Readings

end CalcDoc.Script
