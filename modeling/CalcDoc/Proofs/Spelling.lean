import CalcDoc.Proofs.Characters
import CalcDoc.Proofs.Lexemes.Scanning
import CalcDoc.Text.Lines

/-!
# Words and their lexemes

A source of words with single blanks between them is scanned as the tokens of the words.

- `Spells`: a word is read as a token, if a blank or the end follows.
- `Spelled`: a word with the token that it spells.
- `scan_join`, `ofText_join`: the lexemes of a row of words.
-/

namespace CalcDoc.Script

/-- What follows a word in a source: a blank, or the end. -/
def EndsWord (rest : Text) : Prop :=
  ∀ c, rest.head? = some c → c = ' '

theorem endsWord_nil : EndsWord [] := by
  intro c hc
  cases hc

theorem endsWord_space (t : Text) : EndsWord (' ' :: t) := by
  intro c hc
  exact (Option.some.inj hc).symm

/-- A word is read as a token wherever it ends, and begins with no blank and no comment. -/
def Spells (w : Text) (k : Token) : Prop :=
  ∃ c t, w = c :: t ∧ isBlank c = false ∧ c ≠ '#' ∧
    ∀ rest, EndsWord rest → Token.read c (t ++ rest) = .ok (k, rest)

/-- A word with the token that it spells. -/
structure Spelled where
  word : Text
  token : Token
  spells : Spells word token

/-! ## Words of several kinds -/

/-- A symbol that no other symbol goes on from after a blank. -/
theorem spells_symbol {c : Char} {t : Text} {k : Token} (hc : isBlank c = false) (hne : c ≠ '#')
    (hend : Token.read c t = .ok (k, []))
    (hspace : ∀ u, Token.read c (t ++ ' ' :: u) = .ok (k, ' ' :: u)) : Spells (c :: t) k := by
  refine ⟨c, t, rfl, hc, hne, fun rest hrest => ?_⟩
  cases rest with
  | nil => rw [List.append_nil, hend]
  | cons d u =>
    obtain rfl := hrest d rfl
    exact hspace u

theorem readNumeral_digits {ds rest : Text} (hds : ∀ d ∈ ds, d.isDigit) (hrest : EndsWord rest)
    (isFloat : Bool) : readNumeral isFloat (ds ++ rest) = ⟨ds, isFloat, rest⟩ := by
  induction ds with
  | nil =>
    cases rest with
    | nil => rfl
    | cons c u =>
      obtain rfl := hrest c rfl
      unfold readNumeral
      simp
  | cons d ds ih =>
    have hd := hds d List.mem_cons_self
    rw [List.cons_append]
    unfold readNumeral
    rw [if_pos hd, ih fun d' h => hds d' (List.mem_cons_of_mem _ h)]
    rfl

/-- A row of digits is an integer, if its value is in range. -/
theorem readNumber_digits {c : Char} {ds rest : Text} {value : Option Int64}
    (hds : ∀ d ∈ ds, d.isDigit) (hrest : EndsWord rest)
    (hvalue : int64? (digitsValue (c :: ds)) = value) :
    readNumber c (ds ++ rest) =
      match value with
      | some n => .ok (.int n, rest)
      | none => .error (.integerOutOfRange (String.ofList (c :: ds))) := by
  rw [readNumber, readNumeral_digits hds hrest]
  unfold Numeral.value Token.ofNumeral
  split
  · next hfloat => cases hfloat
  · split
    · next n hn =>
      obtain rfl := hvalue.symm.trans hn
      rfl
    · next hn =>
      obtain rfl := hvalue.symm.trans hn
      rfl

/-- A row of digits is the integer that it writes. -/
theorem spells_digits {c : Char} {ds : Text} {n : Int64} (hc : c.isDigit)
    (hds : ds.all Char.isDigit) (hn : int64? (digitsValue (c :: ds)) = some n) :
    Spells (c :: ds) (.int n) := by
  refine ⟨c, ds, rfl, isBlank_of_isDigit hc, ne_of_class hc (by decide), fun rest hrest => ?_⟩
  rw [read_of_isDigit hc, readNumber_digits (List.all_eq_true.1 hds) hrest hn]

/-- A name or a keyword. -/
theorem spells_word {c : Char} {t : Text} (hc : isNameStart c) (ht : t.all isNamePart) :
    Spells (c :: t) (Token.ofWord (c :: t)) := by
  refine ⟨c, t, rfl, isBlank_of_isNameStart hc, ne_of_class hc (by decide), fun rest hrest => ?_⟩
  have htake : (t ++ rest).takeWhile isNamePart = t := by
    rw [List.takeWhile_append_of_pos (List.all_eq_true.1 ht)]
    cases rest with
    | nil => simp
    | cons d u =>
      obtain rfl := hrest d rfl
      rw [List.takeWhile_cons_of_neg (by decide), List.append_nil]
  have hdrop : (t ++ rest).dropWhile isNamePart = rest := by
    rw [List.dropWhile_append_of_pos (List.all_eq_true.1 ht)]
    cases rest with
    | nil => rfl
    | cons d u =>
      obtain rfl := hrest d rfl
      rfl
  rw [read_of_isNameStart hc, readWord, htake, hdrop]

/-! ## Rows of words -/

/-- The scan of a word, and of what follows it. -/
theorem scan_word {w rest : Text} {k : Token} (h : Spells w k) (hrest : EndsWord rest)
    (depth line start : Nat) :
    scan depth line start (w ++ rest) =
      (scan (depthAfter depth k) line line rest).map fun r =>
        { r with items := ⟨start, k⟩ :: r.items } := by
  obtain ⟨c, t, rfl, hc, hne, hread⟩ := h
  have hline : c ≠ '\n' := by
    rintro rfl
    cases hc
  exact scan_token depth line start hline (by simp [hc]) hne (hread rest hrest)

theorem scan_space (depth line start : Nat) (t : Text) :
    scan depth line start (' ' :: t) = scan depth line start t :=
  scan_blank depth line start t (by decide) (by decide)

/-- The lexemes of words on one line. -/
theorem scan_join (ws : List Spelled) (depth line : Nat) :
    scan depth line line (Text.join ' ' (ws.map Spelled.word)) =
      .ok ⟨ws.map fun w => ⟨line, w.token⟩, line⟩ := by
  induction ws generalizing depth with
  | nil => rw [List.map_nil, Text.join, scan, List.map_nil]
  | cons w ws ih =>
    cases ws with
    | nil =>
      have h := scan_word w.spells endsWord_nil depth line line
      rw [List.append_nil, scan] at h
      exact h
    | cons v ws =>
      rw [List.map_cons, List.map_cons, Text.join, scan_word w.spells (endsWord_space _),
        scan_space, ← List.map_cons, ih]
      rfl

/-- The lexemes of a source of words. -/
theorem ofText_join (ws : List Spelled) :
    Lexemes.ofText (Text.join ' ' (ws.map Spelled.word)) =
      .ok ⟨ws.map fun w => ⟨1, w.token⟩, 1⟩ :=
  scan_join ws 0 1

end CalcDoc.Script
