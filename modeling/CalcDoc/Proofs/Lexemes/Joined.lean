import CalcDoc.Proofs.Grammar.Derivation
import CalcDoc.Proofs.Lexemes.Scanning
import CalcDoc.Proofs.Lexemes.Tokens

/-!
# Sources below one another

The lexemes of two sources with a line feed between them are those of the first, a separator and
those of the second, which stand on later lines. For this the first has to close all parentheses
that it opens.

- `Lexeme.later`, `Error.later`: lexemes and errors some lines further down.
- `scan_later`: a source that begins some lines further down.
- `read_append`, `scan_append`: a token and a whole source with another line behind it.
-/

namespace CalcDoc.Script

/-! ## Later lines -/

/-- The lexeme `d` lines further down. -/
def Lexeme.later (d : Nat) (l : Lexeme) : Lexeme :=
  { l with line := l.line + d }

/-- The error `d` lines further down, if it has a line. -/
def Error.later (d : Nat) : Error → Error
  | .malformed line fault => .malformed (line + d) fault
  | err => err

/-- The lexemes `d` lines further down, or the error there. -/
def scannedLater (d : Nat) : Except Error Lexemes → Except Error Lexemes
  | .ok r => .ok ⟨r.items.map (·.later d), r.endLine + d⟩
  | .error err => .error (err.later d)

theorem scannedLater_map_cons (d n : Nat) (k : Token) (r : Except Error Lexemes) :
    (scannedLater d r).map (fun r => { r with items := ⟨n + d, k⟩ :: r.items }) =
      scannedLater d (r.map fun r => { r with items := ⟨n, k⟩ :: r.items }) := by
  cases r <;> rfl

/-- A source that begins some lines further down has its lexemes, or its error, there. -/
theorem scan_later (d depth line start : Nat) (t : Text) :
    scan depth (line + d) (start + d) t = scannedLater d (scan depth line start t) := by
  have next (n : Nat) : n + d + 1 = n + 1 + d := Nat.add_right_comm n d 1
  induction depth, line, start, t using scan_induction with
  | nil =>
    rw [scan_nil, scan_nil]
    rfl
  | inside depth line start t h ih =>
    rw [scan_newline_inside _ _ _ h, scan_newline_inside _ _ _ h, next, ih]
  | newline line start t ih =>
    rw [scan_newline, scan_newline, next, ih, scannedLater_map_cons]
  | blank depth line start c t hline hblank ih =>
    rw [scan_blank _ _ _ _ hline hblank, scan_blank _ _ _ _ hline hblank, ih]
  | comment depth line start t ih => rw [scan_comment, scan_comment, ih]
  | fault depth line start c t fault hline hblank hcomment hread =>
    rw [scan_fault _ _ _ hline hblank hcomment hread, scan_fault _ _ _ hline hblank hcomment hread]
    rfl
  | token depth line start c t k rest hline hblank hcomment hread ih =>
    rw [scan_token _ _ _ hline hblank hcomment hread,
      scan_token _ _ _ hline hblank hcomment hread, ih, scannedLater_map_cons]

/-! ## Tokens with another line behind them -/

section Append

variable (q : Text)

theorem readString_append {quote : Char} {t s rest : Text}
    (h : readString quote t = .ok (s, rest)) :
    readString quote (t ++ '\n' :: q) = .ok (s, rest ++ '\n' :: q) := by
  fun_induction readString quote t generalizing s rest with
  | case1 => cases h
  | case2 => cases h
  | case3 t hquote =>
    cases h
    rw [List.cons_append, readString.eq_def]
    dsimp only
    rw [if_neg hquote, if_pos rfl]
  | case4 => cases h
  | case5 => cases h
  | case6 => cases h
  | case7 e u d hd s' rest' hu hline hquote ih =>
    cases h
    rw [List.cons_append, List.cons_append, readString.eq_def]
    dsimp only
    rw [if_neg hline, if_neg hquote, if_pos rfl, hd]
    dsimp only
    rw [ih hu]
  | case8 => cases h
  | case9 c t hline hquote hslash s' rest' ht ih =>
    cases h
    rw [List.cons_append, readString.eq_def]
    dsimp only
    rw [if_neg hline, if_neg hquote, if_neg hslash, ih ht]

/-- A line feed belongs to no numeral. -/
theorem readNumeral_append (isFloat : Bool) (t : Text) :
    readNumeral isFloat (t ++ '\n' :: q) =
      { readNumeral isFloat t with rest := (readNumeral isFloat t).rest ++ '\n' :: q } := by
  have stop (isFloat : Bool) : readNumeral isFloat ('\n' :: q) = ⟨[], isFloat, '\n' :: q⟩ := by
    unfold readNumeral
    simp
  fun_induction readNumeral isFloat t with
  | case1 => exact stop _
  | case2 isFloat c t hc ih =>
    rw [List.cons_append, readNumeral.eq_def]
    dsimp only
    rw [if_pos hc, ih]
    rfl
  | case3 isFloat t hc ih =>
    rw [List.cons_append, readNumeral.eq_def]
    dsimp only
    rw [if_neg hc, if_pos rfl, ih]
  | case4 isFloat c t hc hunderscore hpoint ih =>
    rw [List.cons_append, readNumeral.eq_def]
    dsimp only
    rw [if_neg hc, if_neg hunderscore, if_pos hpoint, ih]
    rfl
  | case5 isFloat c hc hunderscore hpoint he =>
    rw [List.cons_append, List.nil_append, readNumeral, if_neg hc, if_neg hunderscore,
      if_neg hpoint, if_pos he, if_neg (by decide), stop]
    rfl
  | case6 isFloat c hc hunderscore hpoint he s u hs ih =>
    rw [List.cons_append, List.cons_append, readNumeral, if_neg hc, if_neg hunderscore,
      if_neg hpoint, if_pos he, if_pos hs, ih]
    rfl
  | case7 isFloat c hc hunderscore hpoint he s u hs ih =>
    rw [List.cons_append, List.cons_append, readNumeral, if_neg hc, if_neg hunderscore,
      if_neg hpoint, if_pos he, if_neg hs, ← List.cons_append, ih]
    rfl
  | case8 isFloat c t hc hunderscore hpoint he =>
    rw [List.cons_append, readNumeral.eq_def]
    dsimp only
    rw [if_neg hc, if_neg hunderscore, if_neg hpoint, if_neg he]

theorem readNumber_append {c : Char} {t rest : Text} {k : Token}
    (h : readNumber c t = .ok (k, rest)) :
    readNumber c (t ++ '\n' :: q) = .ok (k, rest ++ '\n' :: q) := by
  obtain ⟨htoken, rfl⟩ := Numeral.value_eq_ok.1 h
  rw [readNumber, readNumeral_append]
  -- the token depends on the characters alone
  exact Numeral.value_eq_ok.2 ⟨htoken, rfl⟩

theorem readWord_append (c : Char) (t : Text) :
    readWord c (t ++ '\n' :: q) = ((readWord c t).1, (readWord c t).2 ++ '\n' :: q) := by
  have hend : ¬ isNamePart '\n' := by decide
  have htake : (t ++ '\n' :: q).takeWhile isNamePart = t.takeWhile isNamePart := by
    rw [List.takeWhile_append, List.takeWhile_cons_of_neg hend, List.append_nil]
    split
    · next hlength =>
      exact ((List.takeWhile_prefix _).eq_of_length hlength).symm
    · rfl
  have hdrop : (t ++ '\n' :: q).dropWhile isNamePart = t.dropWhile isNamePart ++ '\n' :: q := by
    rw [List.dropWhile_append, List.dropWhile_cons_of_neg hend]
    split
    · next hempty => rw [List.isEmpty_iff.1 hempty, List.nil_append]
    · rfl
  rw [readWord, readWord, htake, hdrop]

theorem readArith_append (op : ArithOp) (t : Text) :
    readArith op (t ++ '\n' :: q) = ((readArith op t).1, (readArith op t).2 ++ '\n' :: q) := by
  unfold readArith
  split
  · next u ht =>
    cases t with
    | nil => cases ht
    | cons c t =>
      obtain ⟨rfl, rfl⟩ := List.cons.inj ht
      rfl
  · next ht =>
    split
    · next u => exact (ht _ rfl).elim
    · rfl

/-- A character that does not stand next in a text does not do so with a line feed behind it. -/
theorem ne_cons_append {d : Char} (hd : d ≠ '\n') {t : Text} (ht : ∀ u, t = d :: u → False) :
    ∀ u, t ++ '\n' :: q = d :: u → False := by
  intro u hu
  cases t with
  | nil => exact hd (List.cons.inj hu).1.symm
  | cons c t => exact ht t (by rw [(List.cons.inj hu).1])

theorem read_append {c : Char} {t rest : Text} {k : Token}
    (h : Token.read c t = .ok (k, rest)) :
    Token.read c (t ++ '\n' :: q) = .ok (k, rest ++ '\n' :: q) := by
  have arith {op : ArithOp} {u : Text}
      (h : (Except.ok (readArith op u) : Except Fault _) = .ok (k, rest)) :
      (Except.ok (readArith op (u ++ '\n' :: q)) : Except Fault _) =
        .ok (k, rest ++ '\n' :: q) := by
    rw [readArith_append, Except.ok.inj h]
  unfold Token.read at h
  split at h
  iterate 4
    · cases h
      rfl
  · exact arith h
  · exact arith h
  · exact arith h
  · exact arith h
  · next ht =>
    rw [Token.read]
    · exact arith h
    · exact ne_cons_append q (by decide) ht
  · exact arith h
  · next ht =>
    rw [Token.read]
    · exact arith h
    · exact ne_cons_append q (by decide) ht
  · cases h
    rfl
  · next ht =>
    cases h
    rw [Token.read]
    exact ne_cons_append q (by decide) ht
  · cases h
    rfl
  · cases h
  · cases h
    rfl
  · next ht =>
    cases h
    rw [Token.read]
    exact ne_cons_append q (by decide) ht
  · cases h
    rfl
  · next ht =>
    cases h
    rw [Token.read]
    exact ne_cons_append q (by decide) ht
  · rw [Token.read]
    -- no symbol begins with this character, whatever stands behind it
    any_goals assumption
    · split at h
      · next hquote =>
        rw [if_pos hquote]
        split at h
        · next hs =>
          cases h
          rw [readString_append q hs]
        · cases h
      · next hquote =>
        rw [if_neg hquote]
        split at h
        · next hdigit => rw [if_pos hdigit, readNumber_append q h]
        · next hdigit =>
          rw [if_neg hdigit]
          split at h
          · next hname =>
            rw [if_pos hname, readWord_append, Except.ok.inj h]
          · cases h
    all_goals exact fun _ hc => absurd hc ‹_›

end Append

/-! ## A source with another one below it -/

/-- The open parentheses after some tokens. -/
def depthAfterAll (depth : Nat) (ks : List Token) : Nat :=
  ks.foldl depthAfter depth

theorem dropWhile_line_append (t q : Text) :
    (t ++ '\n' :: q).dropWhile (· ≠ '\n') = t.dropWhile (· ≠ '\n') ++ '\n' :: q := by
  rw [List.dropWhile_append, List.dropWhile_cons_of_neg (by simp)]
  split
  · next hempty => rw [List.isEmpty_iff.1 hempty, List.nil_append]
  · rfl

theorem count_dropWhile_line (t : Text) :
    (t.dropWhile (· ≠ '\n')).count '\n' = t.count '\n' := by
  induction t with
  | nil => rfl
  | cons c t ih =>
    by_cases hc : c = '\n'
    · rw [List.dropWhile_cons_of_neg (by simp [hc])]
    · rw [List.dropWhile_cons_of_pos (by simp [hc]), ih, List.count_cons_of_ne hc]

/-- The lexemes of a source below another one, which closes all parentheses that it opens. -/
theorem scan_append {depth line start : Nat} {t : Text} {r : Lexemes}
    (h : scan depth line start t = .ok r) (hdepth : depthAfterAll depth (tokens r.items) = 0)
    (q : Text) :
    scan depth line start (t ++ '\n' :: q) =
      (scan 0 (line + (1 + t.count '\n')) (line + (1 + t.count '\n')) q).map fun r' =>
        ⟨r.items ++ ⟨r.endLine, .separator⟩ :: r'.items, r'.endLine⟩ := by
  have hlines (line : Nat) (t : Text) :
      line + 1 + (1 + t.count '\n') = line + (1 + ('\n' :: t).count '\n') := by
    rw [List.count_cons_self]
    omega
  have hcons (l : Lexeme) (ls : List Lexeme) (n : Nat) (x : Except Error Lexemes) :
      ((x.map fun r => (⟨ls ++ ⟨n, .separator⟩ :: r.items, r.endLine⟩ : Lexemes)).map fun r =>
        { r with items := l :: r.items }) =
      x.map fun r => ⟨(l :: ls) ++ ⟨n, .separator⟩ :: r.items, r.endLine⟩ := by
    cases x <;> rfl
  induction depth, line, start, t using scan_induction generalizing r with
  | nil depth line start =>
    rw [scan_nil] at h
    cases h
    obtain rfl : depth = 0 := hdepth
    rw [List.nil_append, scan_newline]
    rfl
  | inside depth line start t hpos ih =>
    rw [scan_newline_inside _ _ _ hpos] at h
    rw [List.cons_append, scan_newline_inside _ _ _ hpos, ih h hdepth, hlines]
  | newline line start t ih =>
    rw [scan_newline] at h
    cases hr : scan 0 (line + 1) (line + 1) t with
    | error err =>
      rw [hr] at h
      cases h
    | ok r' =>
      rw [hr] at h
      cases h
      rw [List.cons_append, scan_newline, ih hr hdepth, hlines]
      exact hcons _ _ _ _
  | blank depth line start c t hline hblank ih =>
    rw [scan_blank _ _ _ _ hline hblank] at h
    rw [List.cons_append, scan_blank _ _ _ _ hline hblank, ih h hdepth,
      List.count_cons_of_ne hline]
  | comment depth line start t ih =>
    rw [scan_comment] at h
    rw [List.cons_append, scan_comment, dropWhile_line_append, ih h hdepth, count_dropWhile_line,
      List.count_cons_of_ne (by decide)]
  | fault depth line start c t fault hline hblank hcomment hread =>
    rw [scan_fault _ _ _ hline hblank hcomment hread] at h
    cases h
  | token depth line start c t k rest hline hblank hcomment hread ih =>
    rw [scan_token _ _ _ hline hblank hcomment hread] at h
    cases hr : scan (depthAfter depth k) line line rest with
    | error err =>
      rw [hr] at h
      cases h
    | ok r' =>
      rw [hr] at h
      cases h
      rw [List.cons_append, scan_token _ _ _ hline hblank hcomment (read_append q hread),
        ih hr hdepth, List.count_cons_of_ne hline, (takenFrom_of_read hread).count_newline]
      exact hcons _ _ _ _

end CalcDoc.Script
