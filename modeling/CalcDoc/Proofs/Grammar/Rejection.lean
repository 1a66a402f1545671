import CalcDoc.Proofs.Grammar.Halting
import CalcDoc.Proofs.Lexemes.Sites
import Mathlib

/-!
# What programs are rejected for

A fault that names a token names the first one that is out of place: some program begins with the
tokens before it, and no program begins with them and it.

- `OutOfPlace`: behind some lexemes a token, or the end, is out of place.
- `haltsAt_readStatement`: statements halt as expressions do.
- `readProgram_halts`: and so do programs, by induction on their statements.
- `outOfPlace_of_readProgram`: the token that a fault names, and the line that is reported for it.
-/

namespace CalcDoc.Script

/-! ## Tokens out of place -/

/-- Some tokens are what a program begins with. -/
def BeginsProgram (ks : List Token) : Prop :=
  ∃ ls more p, tokens ls = ks ∧ DerivesProgram (ls ++ more) p

/-- Behind some tokens another one is out of place, or the end: a program begins with them, but none
goes on with that token, or ends there. -/
def OutOfPlace (ks : List Token) : Option Token → Prop
  | some k => BeginsProgram ks ∧ ¬ BeginsProgram (ks ++ [k])
  | none => BeginsProgram ks ∧ ¬ ∃ ls p, tokens ls = ks ∧ DerivesProgram ls p

theorem exists_of_tokens_cons {ls : List Lexeme} {k : Token} {ks : List Token}
    (h : tokens ls = k :: ks) : ∃ n ms, ls = ⟨n, k⟩ :: ms ∧ tokens ms = ks := by
  obtain ⟨l, ms, rfl, rfl, hms⟩ := List.map_eq_cons_iff.1 h
  exact ⟨l.line, ms, rfl, hms⟩

theorem DerivesStatement.of_tokens {ls ls' : List Lexeme} {s : Statement}
    (h : DerivesStatement ls s) (heq : tokens ls' = tokens ls) :
    ∃ s', DerivesStatement ls' s' := by
  cases h with
  | delete =>
    obtain ⟨n, ms, rfl, hms⟩ := exists_of_tokens_cons heq
    obtain ⟨m, us, rfl, hus⟩ := exists_of_tokens_cons hms
    obtain rfl := List.map_eq_nil_iff.1 hus
    exact ⟨_, .delete⟩
  | assign hd =>
    obtain ⟨n, ms, rfl, hms⟩ := exists_of_tokens_cons heq
    obtain ⟨m, us, rfl, hus⟩ := exists_of_tokens_cons hms
    have hus : tokens us = tokens _ := hus
    exact ⟨_, .assign (hus ▸ hd)⟩
  | augment hd =>
    obtain ⟨n, ms, rfl, hms⟩ := exists_of_tokens_cons heq
    obtain ⟨m, us, rfl, hus⟩ := exists_of_tokens_cons hms
    have hus : tokens us = tokens _ := hus
    exact ⟨_, .augment (hus ▸ hd)⟩
  | eval hd =>
    obtain ⟨n, ms, rfl, hms⟩ := exists_of_tokens_cons heq
    exact ⟨_, .eval (heq ▸ hd)⟩

/-- Whether lexemes are a program does not depend on their lines. -/
theorem DerivesProgram.of_tokens {ls : List Lexeme} {p : Program} (h : DerivesProgram ls p)
    (ls' : List Lexeme) (heq : tokens ls' = tokens ls) : ∃ p', DerivesProgram ls' p' := by
  induction h generalizing ls' with
  | nil =>
    obtain rfl := List.map_eq_nil_iff.1 heq
    exact ⟨[], .nil⟩
  | separator _ ih =>
    obtain ⟨n, ms, rfl, hms⟩ := exists_of_tokens_cons heq
    obtain ⟨p', hp'⟩ := ih ms hms
    exact ⟨p', .separator hp'⟩
  | last hs =>
    obtain ⟨s', hs'⟩ := hs.of_tokens heq
    exact ⟨[s'], .last hs'⟩
  | statement hs _ ih =>
    rw [tokens_append] at heq
    obtain ⟨ls, l, ms, rfl, hls, hl, hms⟩ := exists_of_tokens_append_cons heq
    obtain ⟨s', hs'⟩ := hs.of_tokens hls
    obtain ⟨p', hp'⟩ := ih ms hms
    obtain ⟨n, k⟩ := l
    obtain rfl : k = .separator := hl
    exact ⟨s' :: p', .statement hs' hp'⟩

/-! ## Statements -/

/-- Some lexemes are what a statement begins with. -/
def BeginsStatement (ls : List Lexeme) : Prop :=
  ∃ more s, DerivesStatement (ls ++ more) s

section Statements

variable {endLine levels : Nat}

theorem haltsAt_expression (ts : List Lexeme) :
    HaltsAt endLine (BeginsExpr .either) (readExpr endLine (readers endLine levels)) ts :=
  haltsAt_readExpr (readers_halt endLine levels) ts

theorem derivesStatement_of_taken {taken rest : List Lexeme} {s : Statement}
    (h : readStatement endLine (readers endLine levels) (taken ++ rest) = .ok (s, rest)) :
    DerivesStatement taken s := by
  obtain ⟨us, hus, hd⟩ := derivesStatement_of_read h
  rw [List.append_cancel_right hus]
  exact hd

/-- Whether a statement assigns does not depend on what stands behind the token at which its
expression halts. -/
theorem not_assigns_append {taken rest rest' : List Lexeme} (htaken : taken ≠ [])
    (hrest : nextToken? rest' = nextToken? rest)
    (h : ∀ n x us, taken ++ rest = ⟨n, .name x⟩ :: us → ¬ Assigns us) :
    ∀ n x us, taken ++ rest' = ⟨n, .name x⟩ :: us → ¬ Assigns us := by
  intro n x us hus
  cases taken with
  | nil => exact absurd rfl htaken
  | cons l taken =>
    obtain ⟨rfl, rfl⟩ := List.cons.inj hus
    have hnot : ¬ Assigns (taken ++ rest) := h n x (taken ++ rest) rfl
    show ¬ Assigns (taken ++ rest')
    rw [Assigns, nextToken?_append hrest]
    exact hnot

/-- A name is an expression, so no fault names it where an expression begins. -/
theorem readExpr_name_ne {n : Nat} {x : String} {us : List Lexeme} {fault : Fault}
    {found : Option Token} (hfound : fault.found? = some found) :
    readExpr endLine (readers endLine levels) [⟨n, .name x⟩] ≠ failAt endLine fault us := by
  intro hread
  have hd : DerivesStatement [⟨n, .name x⟩] ⟨n, .eval (.name x)⟩ := .eval (.of_primary .name _)
  have hfail : readStatement endLine (readers endLine levels) [⟨n, .name x⟩] =
      failAt endLine fault us := by
    rw [readStatement_of_not_assigns (by simp [nextToken?]) ?_, hread]
    · rfl
    · rintro m y vs hvs (h | ⟨op, h⟩)
      all_goals
        obtain ⟨-, rfl⟩ := List.cons.inj hvs
        cases h
  rcases readStatement_of_derives endLine hd endsStatement_nil levels with h | ⟨line, h⟩
  · rw [List.append_nil, hfail] at h
    cases h
  · rw [List.append_nil, hfail] at h
    cases h
    cases hfound

/-- No more does a statement whose expression is rejected. -/
theorem not_assigns_of_fault {taken rest : List Lexeme} {fault : Fault} {found : Option Token}
    (hfound : fault.found? = some found)
    (hhalts : Halts (readExpr endLine (readers endLine levels)) taken rest fun us =>
      failAt endLine fault (fault.reportedAt us))
    (h : ∀ n x us, taken ++ rest = ⟨n, .name x⟩ :: us → ¬ Assigns us)
    {rest' : List Lexeme} (hrest : nextToken? rest' = nextToken? rest) :
    ∀ n x us, taken ++ rest' = ⟨n, .name x⟩ :: us → ¬ Assigns us := by
  by_cases htaken : taken = []
  · subst htaken
    rintro n x us rfl
    exact absurd (hhalts [⟨n, .name x⟩] hrest) (readExpr_name_ne hfound)
  · exact not_assigns_append htaken hrest h

/-- An expression that nothing is assigned to is a statement. -/
theorem readStatement_eval_of_not_assigns {ts rest : List Lexeme} {e : Expr}
    (hdel : nextToken? ts ≠ some .del) (hname : ∀ n x us, ts = ⟨n, .name x⟩ :: us → ¬ Assigns us)
    (hread : readExpr endLine (readers endLine levels) ts = .ok (e, rest))
    (hrest : ¬ Assigns rest) :
    readStatement endLine (readers endLine levels) ts =
      .ok (⟨nextLine endLine ts, .eval e⟩, rest) := by
  rw [readStatement_of_not_assigns hdel hname, hread]
  dsimp only
  split
  · next h => exact absurd (.inl h) hrest
  · next h => exact absurd (.inr ⟨_, h⟩) hrest
  · rfl

theorem haltsAt_readStatement_eval {ts : List Lexeme} (hdel : nextToken? ts ≠ some .del)
    (hname : ∀ n x us, ts = ⟨n, .name x⟩ :: us → ¬ Assigns us) :
    HaltsAt endLine BeginsStatement (readStatement endLine (readers endLine levels)) ts := by
  have hexpr :
      HaltsAt endLine (BeginsExpr .either) (readExpr endLine (readers endLine levels)) ts :=
    haltsAt_expression ts
  have hstatement : readStatement endLine (readers endLine levels) ts = _ :=
    readStatement_of_not_assigns hdel hname
  cases hread : readExpr endLine (readers endLine levels) ts with
  | error err =>
    rw [hread] at hstatement
    constructor
    · intro s rest hok
      rw [hstatement] at hok
      cases hok
    · intro line fault found herror hfound
      rw [hstatement] at herror
      cases herror
      obtain ⟨taken, rest, rfl, rfl, ⟨more, e, hd⟩, hhalts⟩ := hexpr.error _ _ _ hread hfound
      refine ⟨taken, rest, rfl, rfl, ?_, ?_⟩
      · cases hls : taken ++ more with
        | nil => exact absurd (congrArg tokens hls) hd.ne_nil
        | cons l ls =>
          rw [hls] at hd
          exact ⟨more, _, hls ▸ DerivesStatement.eval hd⟩
      · intro rest' hrest'
        have hdel' : nextToken? (taken ++ rest') ≠ some .del :=
          nextToken?_append hrest' taken ▸ hdel
        rw [readStatement_of_not_assigns hdel' (not_assigns_of_fault hfound hhalts hname hrest'),
          hhalts rest' hrest']
        rfl
  | ok r =>
    obtain ⟨e, rest⟩ := r
    obtain ⟨taken, rfl, hhalts⟩ := hexpr.ok e rest hread
    by_cases hassigns : Assigns rest
    · have hfail : readStatement endLine (readers endLine levels) (taken ++ rest) =
          failAt endLine .notAssignable rest := by
        rw [hstatement, hread]
        rcases hassigns with h | ⟨op, h⟩
        · simp only [h]
        · simp only [h]
      exact .unnamed hfail rfl
    · have htaken : taken ≠ [] := by
        rintro rfl
        exact Nat.lt_irrefl _ (takes_readExpr (readers_take endLine levels) _ _ _ hread).2
      refine .behind taken (fun us => .ok (⟨nextLine endLine taken, .eval e⟩, us))
        (.pure _ fun _ _ => rfl) fun us hus => ?_
      have hdel' : nextToken? (taken ++ us) ≠ some .del := nextToken?_append hus taken ▸ hdel
      have hassigns' : ¬ Assigns us := by
        rw [Assigns, hus]
        exact hassigns
      rw [readStatement_eval_of_not_assigns hdel' (not_assigns_append htaken hus hname)
        (hhalts us hus) hassigns']
      cases taken with
      | nil => exact absurd rfl htaken
      | cons l taken => rfl

theorem haltsAt_readStatement (ts : List Lexeme) :
    HaltsAt endLine BeginsStatement (readStatement endLine (readers endLine levels)) ts := by
  by_cases hdel : nextToken? ts = some .del
  · obtain ⟨n, us, rfl⟩ := exists_of_nextToken? hdel
    by_cases hname : ∃ x, nextToken? us = some (.name x)
    · obtain ⟨x, hx⟩ := hname
      obtain ⟨m, vs, rfl⟩ := exists_of_nextToken? hx
      exact .behind [⟨n, .del⟩, ⟨m, .name x⟩] _ (.pure ⟨n, .delete x⟩ fun _ _ => rfl) fun _ _ => rfl
    · have hne : ∀ x, nextToken? us ≠ some (.name x) := fun x hx => hname ⟨x, hx⟩
      refine .cons (fun vs => failAt endLine (.expectedNameAfterDel (nextToken? vs)) vs.tail) ?_
        fun vs hvs => readStatement_del (hvs ▸ hne)
      refine .found (.expectedNameAfterDel (nextToken? us)) rfl ?_ fun vs hvs => by rw [hvs]; rfl
      exact ⟨[⟨1, .name ""⟩], _, .delete⟩
  · by_cases hassigns : ∃ n x us, ts = ⟨n, .name x⟩ :: us ∧ Assigns us
    · obtain ⟨n, x, us, rfl, hus | ⟨op, hus⟩⟩ := hassigns
      · obtain ⟨m, vs, rfl⟩ := exists_of_nextToken? hus
        refine .behind [⟨n, .name x⟩, ⟨m, .assign⟩] _
          ((haltsAt_expression vs).map (fun e => ⟨n, Action.assign x e⟩) ?_) fun _ _ => rfl
        rintro ls ⟨more, e, hd⟩
        exact ⟨more, _, .assign hd⟩
      · obtain ⟨m, vs, rfl⟩ := exists_of_nextToken? hus
        refine .behind [⟨n, .name x⟩, ⟨m, .augment op⟩] _
          ((haltsAt_expression vs).map (fun e => ⟨n, Action.augment x op e⟩) ?_) fun _ _ => rfl
        rintro ls ⟨more, e, hd⟩
        exact ⟨more, _, .augment hd⟩
    · exact haltsAt_readStatement_eval hdel fun n x us hts h => hassigns ⟨n, x, us, hts, h⟩

end Statements

/-! ## Programs -/

section Programs

variable {endLine : Nat}

/-- A statement begins no less when something else stands behind the token at which it halts. -/
theorem exists_cons_of_append {l : Lexeme} {ts taken rest rest' : List Lexeme}
    (hl : l.token ≠ .separator) (hts : l :: ts = taken ++ rest)
    (hrest : nextToken? rest' = nextToken? rest) :
    ∃ l' us, taken ++ rest' = l' :: us ∧ l'.token ≠ .separator := by
  have hnext : nextToken? (taken ++ rest') = some l.token := by
    rw [nextToken?_append hrest, ← hts]
    rfl
  obtain ⟨n, us, hus⟩ := exists_of_nextToken? hnext
  exact ⟨⟨n, l.token⟩, us, hus, hl⟩

/-- A program is rejected at the same token whatever stands behind it, and what stands before it is
the beginning of a program. -/
theorem readProgram_halts {ts : List Lexeme} {line : Nat} {fault : Fault} {found : Option Token}
    (h : readProgram endLine ts = .error (.malformed line fault))
    (hfound : fault.found? = some found) :
    ∃ taken rest, ts = taken ++ rest ∧ nextToken? rest = found ∧
      (∃ more p, DerivesProgram (taken ++ more) p) ∧
      ∀ rest', nextToken? rest' = found → readProgram endLine (taken ++ rest') =
        .error (.malformed (nextLine endLine (fault.reportedAt rest')) fault) := by
  fun_induction readProgram endLine ts with
  | case1 => cases h
  | case2 n ts ih =>
    obtain ⟨taken, rest, rfl, hrest, ⟨more, p, hp⟩, hhalts⟩ := ih h
    refine ⟨⟨n, .separator⟩ :: taken, rest, rfl, hrest, ⟨more, p, .separator hp⟩, ?_⟩
    intro rest' hrest'
    rw [List.cons_append, readProgram, hhalts rest' hrest']
  | case3 l ts hsep err hs =>
    -- the first statement is rejected
    cases h
    obtain ⟨taken, rest, hts, rfl, ⟨more, s, hd⟩, hhalts⟩ :=
      (haltsAt_readStatement (l :: ts)).error _ _ _ hs hfound
    refine ⟨taken, rest, hts, rfl, ⟨more, [s], .last hd⟩, ?_⟩
    intro rest' hrest'
    obtain ⟨l', us, hus, hl'⟩ := exists_cons_of_append (ne_separator_of_not hsep) hts hrest'
    have hread := hhalts rest' hrest'
    rw [hus] at hread ⊢
    exact readProgram_of_error hl' hread
  | case4 => cases h
  | case5 => cases h
  | case6 l ts hsep s n ts' hs err hts' ih =>
    -- what is below the first statement is rejected
    cases h
    obtain ⟨taken, hts, hhalts⟩ := (haltsAt_readStatement (l :: ts)).ok _ _ hs
    obtain ⟨taken', rest, rfl, hrest, ⟨more, p, hp⟩, hhalts'⟩ := ih hts'
    refine ⟨taken ++ ⟨n, .separator⟩ :: taken', rest, ?_, hrest, ⟨more, s :: p, ?_⟩, ?_⟩
    · rw [hts, List.append_assoc, List.cons_append]
    · rw [List.append_assoc, List.cons_append]
      exact .statement (derivesStatement_of_taken (hts ▸ hs)) hp
    · intro rest' hrest'
      have hsame : nextToken? (⟨n, .separator⟩ :: (taken' ++ rest')) =
          nextToken? (⟨n, .separator⟩ :: (taken' ++ rest)) := rfl
      obtain ⟨l', us, hus, hl'⟩ := exists_cons_of_append (ne_separator_of_not hsep) hts hsame
      have hread := hhalts _ hsame
      rw [List.append_assoc, List.cons_append]
      rw [hus] at hread ⊢
      rw [readProgram_of_separator hl' hread, hhalts' rest' hrest']
      rfl
  | case7 l ts hsep s k ts' hk hs =>
    -- a token stands in the place of the end of the first statement
    cases h
    cases hfound
    have hk' : k.token ≠ .separator := ne_separator_of_not hk
    obtain ⟨taken, hts, hhalts⟩ := (haltsAt_readStatement (l :: ts)).ok _ _ hs
    refine ⟨taken, k :: ts', hts, rfl, ⟨[], [s], ?_⟩, ?_⟩
    · rw [List.append_nil]
      exact .last (derivesStatement_of_taken (hts ▸ hs))
    · intro rest' hrest'
      obtain ⟨l', us, hus, hl'⟩ := exists_cons_of_append (ne_separator_of_not hsep) hts hrest'
      have hread := hhalts rest' hrest'
      obtain ⟨m, vs, rfl⟩ := exists_of_nextToken? hrest'
      rw [hus] at hread ⊢
      exact readProgram_of_unended hl' hk' hread

/-- The token that a fault names is out of place behind the lexemes before it. -/
theorem outOfPlace_of_readProgram {ts : List Lexeme} {line : Nat} {fault : Fault}
    {found : Option Token} (h : readProgram endLine ts = .error (.malformed line fault))
    (hfound : fault.found? = some found) :
    ∃ taken rest, ts = taken ++ rest ∧ nextToken? rest = found ∧ OutOfPlace (tokens taken) found ∧
      line = nextLine endLine (fault.reportedAt rest) := by
  obtain ⟨taken, rest, rfl, hrest, ⟨more, p, hp⟩, hhalts⟩ := readProgram_halts h hfound
  have hbegins : BeginsProgram (tokens taken) := ⟨taken, more, p, rfl, hp⟩
  -- a program would be read, or its levels would run out
  have hnone (rest' : List Lexeme) (q : Program) (hrest' : nextToken? rest' = found) :
      ¬ DerivesProgram (taken ++ rest') q := by
    intro hq
    rcases readProgram_of_derives hq with hok | ⟨line', htoo⟩
    · rw [hhalts rest' hrest'] at hok
      cases hok
    · rw [hhalts rest' hrest'] at htoo
      cases htoo
      cases hfound
  refine ⟨taken, rest, rfl, hrest, ?_, ?_⟩
  · cases found with
    | none =>
      refine ⟨hbegins, ?_⟩
      rintro ⟨ls, q, hls, hq⟩
      obtain ⟨q', hq'⟩ := hq.of_tokens (taken ++ []) (by rw [List.append_nil, hls])
      exact hnone [] q' rfl hq'
    | some k =>
      refine ⟨hbegins, ?_⟩
      rintro ⟨ls, more, q, hls, hq⟩
      obtain ⟨q', hq'⟩ := hq.of_tokens (taken ++ ⟨1, k⟩ :: more) (by simp [hls])
      exact hnone (⟨1, k⟩ :: more) q' rfl hq'
  · have hfail := hhalts rest hrest
    rw [h] at hfail
    cases hfail
    rfl

end Programs

/-! ## Faulty tokens -/

theorem found?_of_readString {quote : Char} {t : Text} {fault : Fault}
    (h : readString quote t = .error fault) : fault.found? = none := by
  fun_induction readString quote t generalizing fault with
  | case1 | case2 | case4 | case5 =>
    cases h
    rfl
  | case3 | case7 | case9 => cases h
  | case6 e u d hd fault' hu hline hquote ih =>
    cases h
    exact ih hu
  | case8 c t hline hquote hslash fault' ht ih =>
    cases h
    exact ih ht

theorem found?_of_readNumber {c : Char} {t : Text} {fault : Fault}
    (h : readNumber c t = .error fault) : fault.found? = none := by
  unfold readNumber Numeral.value Token.ofNumeral at h
  split at h
  all_goals
    split at h
    · cases h
    · cases h
      rfl

/-- A token is faulty in itself, and not for the token that it is. -/
theorem found?_of_read {c : Char} {t : Text} {fault : Fault} (h : Token.read c t = .error fault) :
    fault.found? = none := by
  unfold Token.read at h
  split at h
  iterate 14
    · cases h
  · cases h
    rfl
  iterate 4
    · cases h
  · -- strings, numbers and words
    split at h
    · split at h
      · cases h
      · next hs =>
        cases h
        exact found?_of_readString hs
    · split at h
      · exact found?_of_readNumber h
      · split at h
        · cases h
        · cases h
          rfl

/-- No scan fails for a token that is out of place. -/
theorem found?_of_scan {depth line start n : Nat} {t : Text} {fault : Fault}
    (h : scan depth line start t = .error (.malformed n fault)) : fault.found? = none := by
  induction depth, line, start, t using scan_induction with
  | nil =>
    rw [scan_nil] at h
    cases h
  | inside _ _ _ t hdepth ih =>
    rw [scan_newline_inside _ _ _ hdepth] at h
    exact ih h
  | newline line _ t ih =>
    rw [scan_newline] at h
    cases hr : scan 0 (line + 1) (line + 1) t with
    | error err =>
      rw [hr] at h
      cases h
      exact ih hr
    | ok r =>
      rw [hr] at h
      cases h
  | blank _ _ _ c t hline hblank ih =>
    rw [scan_blank _ _ _ _ hline hblank] at h
    exact ih h
  | comment _ _ _ t ih =>
    rw [scan_comment] at h
    exact ih h
  | fault _ _ _ c t fault hline hblank hcomment hread =>
    rw [scan_fault _ _ _ hline hblank hcomment hread] at h
    cases h
    exact found?_of_read hread
  | token depth line _ c t k rest hline hblank hcomment hread ih =>
    rw [scan_token _ _ _ hline hblank hcomment hread] at h
    cases hr : scan (depthAfter depth k) line line rest with
    | error err =>
      rw [hr] at h
      cases h
      exact ih hr
    | ok r =>
      rw [hr] at h
      cases h

/-! ## Lines of errors -/

namespace Program

/-- A source is rejected for a token that is out of place. The error has the line on which the scan
for that token begins; but if the token is taken before the error is made, then the error has the
line on which the text goes on behind it, unless it is the end. That is the line on which the token
starts unless a line feed is skipped before it, or, in the other case, unless the token is a line
feed. -/
theorem ofText_error_line {source : Text} {line : Nat} {fault : Fault} {found : Option Token}
    (h : Program.ofText source = .error (.malformed line fault))
    (hfound : fault.found? = some found) :
    ∃ above p below, sites 0 [] source = some (above ++ p :: below) ∧
      Site.written (above ++ p :: below) = source ∧ p.token = found ∧
      OutOfPlace (above.filterMap Site.token) found ∧
      if fault.takesFound ∧ found.isSome then
        line = Site.stopLine above p ∧ (line = Site.startLine above p ↔ '\n' ∉ p.raw)
      else line = Site.scanLine above ∧ (line = Site.startLine above p ↔ '\n' ∉ p.gap) := by
  unfold Program.ofText at h
  cases hlexemes : Lexemes.ofText source with
  | error err =>
    rw [hlexemes] at h
    cases h
    rw [found?_of_scan hlexemes] at hfound
    cases hfound
  | ok ls =>
    rw [hlexemes] at h
    obtain ⟨taken, rest, hitems, rfl, hplace, rfl⟩ := outOfPlace_of_readProgram h hfound
    obtain ⟨above, p, below, hsites, hwritten, htokens, hp, hscan, hstop⟩ :=
      exists_site hlexemes hitems
    refine ⟨above, p, below, hsites, hwritten, hp, htokens ▸ hplace, ?_⟩
    split
    · next htakes =>
      have hrest : rest ≠ [] := by
        rintro rfl
        cases htakes.2
      have hline : nextLine ls.endLine (fault.reportedAt rest) = Site.stopLine above p := by
        rw [Fault.reportedAt, if_pos htakes.1, hstop hrest]
      rw [hline]
      exact ⟨rfl, Site.stopLine_eq_startLine_iff above p⟩
    · next htakes =>
      have hline : nextLine ls.endLine (fault.reportedAt rest) = Site.scanLine above := by
        rw [← hscan]
        cases rest with
        | nil =>
          -- the end is never left
          rw [Fault.reportedAt, List.tail_nil, ite_self]
        | cons l rest =>
          rw [Fault.reportedAt, if_neg fun h => htakes ⟨h, rfl⟩]
      rw [hline]
      exact ⟨rfl, Site.scanLine_eq_startLine_iff above p⟩

/-- Two errors that have not the line of the token that they name: of the line feed that ends a
statement too early, and of the number that stands where a parenthesis should close. -/
theorem ofText_misreports_line :
    (∃ above p below, sites 0 [] "1 +\n2".toList = some (above ++ p :: below) ∧
      Program.ofText "1 +\n2".toList = .error (.malformed 2 (.expectedExpression p.token)) ∧
      (∀ q ∈ above ++ below, q.token ≠ p.token) ∧ Site.startLine above p = 1) ∧
    ∃ above p below, sites 0 [] "f(1\n2)".toList = some (above ++ p :: below) ∧
      Program.ofText "f(1\n2)".toList = .error (.malformed 1 (.expectedCloseParen p.token)) ∧
      (∀ q ∈ above ++ below, q.token ≠ p.token) ∧ Site.startLine above p = 2 := by
  constructor
  · refine ⟨[⟨[], ['1'], some (.int 1)⟩, ⟨[' '], ['+'], some (.arith .add)⟩],
      ⟨[], ['\n'], some .separator⟩, [⟨[], ['2'], some (.int 2)⟩, ⟨[], [], none⟩], ?_, ?_, ?_, ?_⟩
    · cbv
    · cbv
    · simp
    · decide
  · refine ⟨[⟨[], ['f'], some (.name "f")⟩, ⟨[], ['('], some .openParen⟩,
      ⟨[], ['1'], some (.int 1)⟩], ⟨['\n'], ['2'], some (.int 2)⟩,
      [⟨[], [')'], some .closeParen⟩, ⟨[], [], none⟩], ?_, ?_, ?_, ?_⟩
    · cbv
    · cbv
    · simp
    · decide

/-- A second number on the second line. -/
theorem ofText_error_line_of_two_numbers :
    Program.ofText "x = 1\n1 2".toList =
      .error (.malformed 2 (.expectedEndOfStatement (some (.int 2)))) ∧
    ∃ above p below, sites 0 [] "x = 1\n1 2".toList = some (above ++ p :: below) ∧
      Site.written (above ++ p :: below) = "x = 1\n1 2".toList ∧ p.token = some (.int 2) ∧
      OutOfPlace (above.filterMap Site.token) (some (.int 2)) ∧
      2 = Site.scanLine above ∧ (2 = Site.startLine above p ↔ '\n' ∉ p.gap) := by
  have h : Program.ofText "x = 1\n1 2".toList =
      .error (.malformed 2 (.expectedEndOfStatement (some (.int 2)))) := by
    cbv
  exact ⟨h, ofText_error_line h rfl⟩

end Program

end CalcDoc.Script
