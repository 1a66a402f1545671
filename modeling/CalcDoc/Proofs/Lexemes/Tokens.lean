import CalcDoc.Proofs.Bytes
import CalcDoc.Proofs.Lexemes.Scanning

/-!
# What tokens are taken from

Each token stands on one line. A string is no longer than its source: an escape is longer than the
character that it stands for.

- `TakenFrom`, `takenFrom_of_read`: what a token is taken from, and what stands after it.
- `stringsWithin_of_scan`: the bytes of the strings among the lexemes of a text.
-/

namespace CalcDoc.Script

/-! ## What a token is taken from -/

/-- A token is taken from the front of a text, and from one line of it. If it is a string, it has no
more bytes than the text. -/
structure TakenFrom (t : Text) (k : Token) (rest : Text) : Prop where
  line : ∃ raw, t = raw ++ rest ∧ '\n' ∉ raw
  string : ∀ s, k = .str s → s.utf8ByteSize ≤ Text.byteSize t

namespace TakenFrom

variable {t rest : Text} {k : Token}

theorem suffix (h : TakenFrom t k rest) : rest <:+ t := by
  obtain ⟨raw, rfl, -⟩ := h.line
  exact List.suffix_append raw rest

theorem count_newline (h : TakenFrom t k rest) : t.count '\n' = rest.count '\n' := by
  obtain ⟨raw, rfl, hraw⟩ := h.line
  rw [List.count_append, List.count_eq_zero.2 hraw, Nat.zero_add]

/-- A token that is no string. -/
theorem other (hk : ∀ s, k ≠ .str s) (h : ∃ raw, t = raw ++ rest ∧ '\n' ∉ raw) :
    TakenFrom t k rest :=
  ⟨h, fun s hs => absurd hs (hk s)⟩

/-- A token that ends at once. -/
theorem here (hk : ∀ s, k ≠ .str s) : TakenFrom t k t :=
  .other hk ⟨[], rfl, List.not_mem_nil⟩

/-- A token with one more character. -/
theorem cons {c : Char} (h : TakenFrom t k rest) (hc : c ≠ '\n') : TakenFrom (c :: t) k rest := by
  obtain ⟨⟨raw, rfl, hraw⟩, hstring⟩ := h
  refine ⟨⟨c :: raw, rfl, by simp [hc.symm, hraw]⟩, fun s hs => Nat.le_trans (hstring s hs) ?_⟩
  exact Text.byteSize_le_of_sublist (List.sublist_cons_self c _)

end TakenFrom

/-! ## Strings -/

theorem utf8Size_of_unescape? {e d : Char} (h : unescape? e = some d) :
    d.utf8Size = 1 ∧ e ≠ '\n' := by
  unfold unescape? at h
  split at h
  all_goals cases h
  all_goals exact ⟨rfl, by decide⟩

/-- A string is written on one line, with at least as many bytes as it has, and a quote after it. -/
theorem exists_of_readString {quote : Char} {t s rest : Text}
    (h : readString quote t = .ok (s, rest)) :
    ∃ raw, t = raw ++ rest ∧ '\n' ∉ raw ∧ Text.byteSize s ≤ Text.byteSize raw := by
  fun_induction readString quote t generalizing s rest with
  | case1 => cases h
  | case2 => cases h
  | case3 t hquote =>
    cases h
    exact ⟨[quote], rfl, by simpa using Ne.symm hquote, Nat.zero_le _⟩
  | case4 => cases h
  | case5 => cases h
  | case6 => cases h
  | case7 e u d hd s' rest' hu _ _ ih =>
    cases h
    obtain ⟨raw, rfl, hraw, hsize⟩ := ih hu
    obtain ⟨hone, he⟩ := utf8Size_of_unescape? hd
    refine ⟨'\\' :: e :: raw, rfl, by simp [hraw, he.symm], ?_⟩
    have := e.utf8Size_pos
    simp only [Text.byteSize_cons]
    omega
  | case8 => cases h
  | case9 c t hline _ _ s' rest' ht ih =>
    cases h
    obtain ⟨raw, rfl, hraw, hsize⟩ := ih ht
    refine ⟨c :: raw, rfl, by simp [hraw, Ne.symm hline], ?_⟩
    rw [Text.byteSize_cons, Text.byteSize_cons]
    exact Nat.add_le_add_left hsize _

theorem takenFrom_readString {quote : Char} {t s rest : Text}
    (h : readString quote t = .ok (s, rest)) : TakenFrom t (.str (String.ofList s)) rest := by
  obtain ⟨raw, rfl, hraw, hsize⟩ := exists_of_readString h
  refine ⟨⟨raw, rfl, hraw⟩, ?_⟩
  rintro _ ⟨⟩
  rw [Text.byteSize_append]
  exact Nat.le_add_right_of_le hsize

/-! ## Numbers, words and operators -/

theorem exists_rest_readNumeral (isFloat : Bool) (t : Text) :
    ∃ raw, t = raw ++ (readNumeral isFloat t).rest ∧ '\n' ∉ raw := by
  have push {c : Char} {u v : Text} (hc : '\n' ≠ c)
      (h : ∃ raw, u = raw ++ v ∧ '\n' ∉ raw) : ∃ raw, c :: u = raw ++ v ∧ '\n' ∉ raw := by
    obtain ⟨raw, rfl, hraw⟩ := h
    exact ⟨c :: raw, rfl, by simp [hc, hraw]⟩
  have letter {c : Char} (hc : c = 'e' ∨ c = 'E') : '\n' ≠ c := by
    rcases hc with rfl | rfl <;> decide
  fun_induction readNumeral isFloat t with
  | case1 => exact ⟨[], rfl, List.not_mem_nil⟩
  | case2 isFloat c t hc ih =>
    refine push ?_ ih
    rintro rfl
    cases hc
  | case3 isFloat t _ ih => exact push (by decide) ih
  | case4 isFloat c t _ _ hpoint ih => exact push (hpoint.1 ▸ by decide) ih
  | case5 isFloat c _ _ _ hc => exact push (letter hc) ⟨[], rfl, List.not_mem_nil⟩
  | case6 isFloat c _ _ _ hc s u hs ih =>
    refine push (letter hc) (push ?_ ih)
    rcases hs with rfl | rfl <;> decide
  | case7 isFloat c _ _ _ hc s u _ ih => exact push (letter hc) ih
  | case8 => exact ⟨[], rfl, List.not_mem_nil⟩

theorem takenFrom_readNumber {c : Char} {t rest : Text} {k : Token}
    (h : readNumber c t = .ok (k, rest)) : TakenFrom t k rest := by
  obtain ⟨htoken, rfl⟩ := Numeral.value_eq_ok.1 h
  refine .other ?_ (exists_rest_readNumeral false t)
  unfold Token.ofNumeral at htoken
  split at htoken
  all_goals
    split at htoken
    · cases htoken
      exact fun _ => nofun
    · cases htoken

theorem takenFrom_readWord (c : Char) (t : Text) :
    TakenFrom t (readWord c t).1 (readWord c t).2 := by
  refine .other (fun s => ?_) ⟨t.takeWhile isNamePart, (List.takeWhile_append_dropWhile).symm, ?_⟩
  · show Token.ofWord _ ≠ .str s
    unfold Token.ofWord
    split <;> exact nofun
  · intro hmem
    have hpart := List.all_eq_true.1 List.all_takeWhile _ hmem
    cases hpart

theorem takenFrom_readArith {op : ArithOp} {t rest : Text} {k : Token}
    (h : readArith op t = (k, rest)) : TakenFrom t k rest := by
  unfold readArith at h
  split at h
  · cases h
    exact .cons (.here (fun _ => nofun)) (by decide)
  · cases h
    exact .here (fun _ => nofun)

/-! ## All tokens -/

theorem takenFrom_of_read {c : Char} {t rest : Text} {k : Token}
    (h : Token.read c t = .ok (k, rest)) : TakenFrom t k rest := by
  have double {op : ArithOp} {d : Char} {u : Text} (hd : d ≠ '\n')
      (h : (Except.ok (readArith op u) : Except Fault _) = .ok (k, rest)) :
      TakenFrom (d :: u) k rest :=
    (takenFrom_readArith (Except.ok.inj h)).cons hd
  unfold Token.read at h
  split at h
  iterate 4
    · cases h
      exact .here (fun _ => nofun)
  · exact takenFrom_readArith (Except.ok.inj h)
  · exact takenFrom_readArith (Except.ok.inj h)
  · exact takenFrom_readArith (Except.ok.inj h)
  · exact double (by decide) h
  · exact takenFrom_readArith (Except.ok.inj h)
  · exact double (by decide) h
  · exact takenFrom_readArith (Except.ok.inj h)
  · cases h
    exact .cons (.here (fun _ => nofun)) (by decide)
  · cases h
    exact .here (fun _ => nofun)
  · cases h
    exact .cons (.here (fun _ => nofun)) (by decide)
  · cases h
  · cases h
    exact .cons (.here (fun _ => nofun)) (by decide)
  · cases h
    exact .here (fun _ => nofun)
  · cases h
    exact .cons (.here (fun _ => nofun)) (by decide)
  · cases h
    exact .here (fun _ => nofun)
  · -- strings, numbers and words
    split at h
    · split at h
      · next hs =>
        cases h
        exact takenFrom_readString hs
      · cases h
    · split at h
      · exact takenFrom_readNumber h
      · split at h
        · cases h
          exact takenFrom_readWord _ _
        · cases h

/-! ## The strings of a source -/

/-- No string among some lexemes has more bytes than a text. -/
def StringsWithin (t : Text) (ls : List Lexeme) : Prop :=
  ∀ l ∈ ls, ∀ s, l.token = .str s → s.utf8ByteSize ≤ Text.byteSize t

theorem StringsWithin.of_suffix {t u : Text} {ls : List Lexeme} (h : StringsWithin u ls)
    (hu : u <:+ t) : StringsWithin t ls :=
  fun l hl s hs => Nat.le_trans (h l hl s hs) (Text.byteSize_le_of_sublist hu.sublist)

theorem StringsWithin.cons {t : Text} {l : Lexeme} {ls : List Lexeme}
    (hl : ∀ s, l.token = .str s → s.utf8ByteSize ≤ Text.byteSize t) (h : StringsWithin t ls) :
    StringsWithin t (l :: ls) := by
  intro l' hl'
  rcases List.mem_cons.1 hl' with rfl | hl'
  · exact hl
  · exact h l' hl'

/-- No string among the lexemes of a text has more bytes than the text. -/
theorem stringsWithin_of_scan {depth line start : Nat} {t : Text} {r : Lexemes}
    (h : scan depth line start t = .ok r) : StringsWithin t r.items := by
  induction depth, line, start, t using scan_induction generalizing r with
  | nil =>
    rw [scan_nil] at h
    cases h
    exact fun l hl => absurd hl List.not_mem_nil
  | inside _ _ _ t hdepth ih =>
    rw [scan_newline_inside _ _ _ hdepth] at h
    exact (ih h).of_suffix (List.suffix_cons _ _)
  | newline line _ t ih =>
    rw [scan_newline] at h
    cases hr : scan 0 (line + 1) (line + 1) t with
    | error err =>
      rw [hr] at h
      cases h
    | ok r' =>
      rw [hr] at h
      cases h
      exact .cons (fun s hs => by cases hs) ((ih hr).of_suffix (List.suffix_cons _ _))
  | blank _ _ _ c t hline hblank ih =>
    rw [scan_blank _ _ _ _ hline hblank] at h
    exact (ih h).of_suffix (List.suffix_cons _ _)
  | comment _ _ _ t ih =>
    rw [scan_comment] at h
    exact (ih h).of_suffix ((List.dropWhile_suffix _).trans (List.suffix_cons _ _))
  | fault _ _ _ c t fault hline hblank hcomment hread =>
    rw [scan_fault _ _ _ hline hblank hcomment hread] at h
    cases h
  | token depth line _ c t k rest hline hblank hcomment hread ih =>
    rw [scan_token _ _ _ hline hblank hcomment hread] at h
    cases hr : scan (depthAfter depth k) line line rest with
    | error err =>
      rw [hr] at h
      cases h
    | ok r' =>
      rw [hr] at h
      cases h
      have htaken := takenFrom_of_read hread
      refine .cons (fun s hs => ?_) ((ih hr).of_suffix ?_)
      · exact Nat.le_trans (htaken.string s hs)
          (Text.byteSize_le_of_sublist (List.sublist_cons_self c t))
      · exact htaken.suffix.trans (List.suffix_cons c t)

end CalcDoc.Script
