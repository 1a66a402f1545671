import CalcDoc.Proofs.Definedness.Slices
import CalcDoc.Proofs.Numbers.Ranges
import CalcDoc.Proofs.Numerals
import CalcDoc.Proofs.Spelling

/-!
# Written tokens

How a token is written so that it is read back, and which tokens can be written.

- `Quote`, `escaped`: strings in quotes of either kind; `readString_escaped` is how they are read.
- `isName`: the words that are names.
- `Token.written`, `Token.isWritable`: the words of tokens, and whether they are read back.
- `spells_written`, `exists_spelled`: a writable token is read from its word, and a row of them from
  their words.
- `rowSource`, `Lexemes.ofText_rowSource`: the source of a row of tokens, and that it is read back.
-/

namespace CalcDoc.Script

/-! ## Strings -/

/-- The quotes that a string may stand in. -/
inductive Quote where
  | single | double
deriving DecidableEq, Repr

/-- The character of a quote. -/
def Quote.char : Quote → Char
  | .single => '\''
  | .double => '"'

/-- What stands between the quotes of a string: a line feed, the quote and the backslash as escapes,
and every other character as it is. -/
def escaped (q : Quote) : Text → Text
  | [] => []
  | c :: t =>
    if c = '\n' then '\\' :: 'n' :: escaped q t
    else if c = q.char ∨ c = '\\' then '\\' :: c :: escaped q t
    else c :: escaped q t

theorem readString_close (q : Quote) (rest : Text) :
    readString q.char (q.char :: rest) = .ok ([], rest) := by
  have hline : q.char ≠ '\n' := by cases q <;> decide
  unfold readString
  rw [if_neg hline, if_pos rfl]

theorem readString_escape {q : Quote} {e c : Char} {t s rest : Text} (he : unescape? e = some c)
    (h : readString q.char t = .ok (s, rest)) :
    readString q.char ('\\' :: e :: t) = .ok (c :: s, rest) := by
  have hquote : '\\' ≠ q.char := by cases q <;> decide
  unfold readString
  rw [if_neg (by decide), if_neg hquote, if_pos rfl]
  simp only [he, h]

theorem readString_char {q : Quote} {c : Char} {t s rest : Text} (hline : c ≠ '\n')
    (hquote : c ≠ q.char) (hslash : c ≠ '\\') (h : readString q.char t = .ok (s, rest)) :
    readString q.char (c :: t) = .ok (c :: s, rest) := by
  unfold readString
  rw [if_neg hline, if_neg hquote, if_neg hslash, h]

/-- What is written between quotes is read up to the closing one. -/
theorem readString_escaped (q : Quote) (s rest : Text) :
    readString q.char (escaped q s ++ q.char :: rest) = .ok (s, rest) := by
  induction s with
  | nil => exact readString_close q rest
  | cons c s ih =>
    rw [escaped]
    split
    · next hline =>
      subst hline
      exact readString_escape rfl ih
    · next hline =>
      split
      · next hspecial =>
        refine readString_escape ?_ ih
        rcases hspecial with rfl | rfl
        · cases q <;> rfl
        · rfl
      · next hspecial =>
        obtain ⟨hquote, hslash⟩ := not_or.1 hspecial
        exact readString_char hline hquote hslash ih

/-- A string in quotes is that string. -/
theorem spells_quoted (q : Quote) (s : String) :
    Spells (q.char :: (escaped q s.toList ++ [q.char])) (.str s) := by
  refine ⟨q.char, _, rfl, by cases q <;> rfl, by cases q <;> decide, fun rest _ => ?_⟩
  have hread := readString_escaped q s.toList rest
  rw [List.append_assoc, List.singleton_append]
  cases q <;> simp_all [Token.read, Quote.char]

/-! ## Numbers -/

/-- The digits of an integer that is not negative are that integer. -/
theorem spells_toString {n : Int64} (hn : 0 ≤ n.toInt) :
    Spells (toString n.toInt).toList (.int n) := by
  obtain ⟨k, hk⟩ := Int.eq_ofNat_of_zero_le hn
  obtain ⟨c, ds, htoDigits, hc, hds, hvalue⟩ := exists_toDigits k
  have htext : (toString n.toInt).toList = c :: ds := by
    rw [hk, ← htoDigits]
    exact toList_toString_nat k
  have hint : int64? (digitsValue (c :: ds)) = some n := by
    rw [hvalue, ← hk, int64?_toInt]
  rw [htext]
  exact spells_digits hc (List.all_eq_true.2 hds) hint

/-! ## Names -/

/-- The words that are no names. -/
def keywords : List String :=
  ["true", "false", "none", "and", "or", "not", "del"]

/-- Whether a text is a name: its characters are those of a name, and it is no keyword. -/
def isName (x : String) : Bool :=
  match x.toList with
  | [] => false
  | c :: t => isNameStart c && t.all isNamePart && !keywords.contains x

theorem ofWord_of_notMem {w : Text} (h : String.ofList w ∉ keywords) :
    Token.ofWord w = .name (String.ofList w) := by
  simp only [keywords, List.mem_cons, List.not_mem_nil, or_false, not_or] at h
  unfold Token.ofWord
  split <;> simp_all

/-- A name is read as such. -/
theorem spells_name {x : String} (hx : isName x) : Spells x.toList (.name x) := by
  unfold isName at hx
  split at hx
  · cases hx
  · next c t hlist =>
    simp only [Bool.and_eq_true, Bool.not_eq_true', List.contains_eq_mem,
      decide_eq_false_iff_not] at hx
    obtain ⟨⟨hc, ht⟩, hkeyword⟩ := hx
    have hx : String.ofList (c :: t) = x := by rw [← hlist, String.ofList_toList]
    have hword := ofWord_of_notMem (w := c :: t) (hx ▸ hkeyword)
    rw [hx] at hword
    rw [hlist, ← hword]
    exact spells_word hc ht

/-! ## All tokens -/

/-- The word of a token, with strings in the given quotes. -/
def Token.written (q : Quote) : Token → Text
  | .int n => (toString n.toInt).toList
  | .float x => (floatText x).toList
  | .str s => q.char :: (escaped q s.toList ++ [q.char])
  | .name x => x.toList
  | .bool true => "true".toList
  | .bool false => "false".toList
  | .absent => "none".toList
  | .and => "and".toList
  | .or => "or".toList
  | .not => "not".toList
  | .del => "del".toList
  | .arith op => op.symbol.toList
  | .compare op => op.symbol.toList
  | .assign => "=".toList
  | .augment op => (op.symbol ++ "=").toList
  | .openParen => "(".toList
  | .closeParen => ")".toList
  | .comma => ",".toList
  | .separator => ";".toList

/-- Whether a token is read from its word: numerals have no sign, and the text of a double need not
be its numeral. -/
def Token.isWritable : Token → Bool
  | .int n => 0 ≤ n.toInt
  | .float _ => false
  | .name x => isName x
  | _ => true

/-- A writable token is read from its word. -/
theorem spells_written {k : Token} (q : Quote) (h : k.isWritable) : Spells (k.written q) k := by
  cases k with
  | int n => exact spells_toString (of_decide_eq_true h)
  | float x => cases h
  | str s => exact spells_quoted q s
  | name x => exact spells_name h
  | bool b => cases b <;> exact spells_word (by decide) (by decide)
  | absent => exact spells_word (by decide) (by decide)
  | and => exact spells_word (by decide) (by decide)
  | or => exact spells_word (by decide) (by decide)
  | not => exact spells_word (by decide) (by decide)
  | del => exact spells_word (by decide) (by decide)
  | arith op => cases op <;> exact spells_symbol (by decide) (by decide) rfl fun _ => rfl
  | compare op => cases op <;> exact spells_symbol (by decide) (by decide) rfl fun _ => rfl
  | assign => exact spells_symbol (by decide) (by decide) rfl fun _ => rfl
  | augment op => cases op <;> exact spells_symbol (by decide) (by decide) rfl fun _ => rfl
  | openParen => exact spells_symbol (by decide) (by decide) rfl fun _ => rfl
  | closeParen => exact spells_symbol (by decide) (by decide) rfl fun _ => rfl
  | comma => exact spells_symbol (by decide) (by decide) rfl fun _ => rfl
  | separator => exact spells_symbol (by decide) (by decide) rfl fun _ => rfl

/-- Writable tokens have words that spell them, with each string in quotes of its own. -/
theorem exists_spelled_each {ks : List (Quote × Token)} (h : ∀ k ∈ ks, k.2.isWritable) :
    ∃ ws : List Spelled, ws.map Spelled.word = ks.map (fun k => k.2.written k.1) ∧
      ws.map Spelled.token = ks.map Prod.snd := by
  induction ks with
  | nil => exact ⟨[], rfl, rfl⟩
  | cons k ks ih =>
    obtain ⟨ws, hwords, htokens⟩ := ih fun k' hk' => h k' (List.mem_cons_of_mem _ hk')
    refine ⟨⟨_, _, spells_written k.1 (h k List.mem_cons_self)⟩ :: ws, ?_, ?_⟩
    · rw [List.map_cons, List.map_cons, hwords]
    · rw [List.map_cons, List.map_cons, htokens]

/-- Writable tokens have words that spell them. -/
theorem exists_spelled {ks : List Token} (q : Quote) (h : ∀ k ∈ ks, k.isWritable) :
    ∃ ws : List Spelled, ws.map Spelled.word = ks.map (Token.written q) ∧
      ws.map Spelled.token = ks := by
  have heach : ∀ k ∈ ks.map (q, ·), k.2.isWritable := by
    intro p hp
    obtain ⟨k, hk, rfl⟩ := List.mem_map.1 hp
    exact h k hk
  obtain ⟨ws, hwords, htokens⟩ := exists_spelled_each heach
  rw [List.map_map] at hwords htokens
  exact ⟨ws, hwords, htokens.trans (List.map_id ks)⟩

/-! ## Rows of tokens -/

/-- The source of a row of tokens, with single blanks between their words and each string in quotes
of its own. -/
def rowSource (ks : List (Quote × Token)) : Text :=
  Text.join ' ' (ks.map fun k => k.2.written k.1)

/-- The lexemes of a row of writable tokens are these tokens, all on the first line, as is the end.
This holds of the scan of characters and of the scan that cuts slices out of the source. -/
theorem Lexemes.ofText_rowSource {ks : List (Quote × Token)} (h : ∀ k ∈ ks, k.2.isWritable) :
    Lexemes.ofText (rowSource ks) = .ok ⟨ks.map fun k => ⟨1, k.2⟩, 1⟩ ∧
      Lexemes.ofText? (rowSource ks) = some (.ok ⟨ks.map fun k => ⟨1, k.2⟩, 1⟩) := by
  obtain ⟨ws, hwords, htokens⟩ := exists_spelled_each h
  have hlexemes : (ws.map fun w => (⟨1, w.token⟩ : Lexeme)) = ks.map fun k => ⟨1, k.2⟩ := by
    have hmap := congrArg (List.map (Lexeme.mk 1)) htokens
    rwa [List.map_map, List.map_map] at hmap
  have hscan : Lexemes.ofText (rowSource ks) = .ok ⟨ks.map fun k => ⟨1, k.2⟩, 1⟩ := by
    rw [rowSource, ← hwords, ofText_join, hlexemes]
  refine ⟨hscan, ?_⟩
  rw [Lexemes.ofText?_eq, hscan]

/-- Tokens that stand in no program in this order: operators that begin alike, strings in quotes of
both kinds, the greatest integer, and parentheses that close nothing. -/
def mixedRow : List (Quote × Token) :=
  [(.double, .arith .mul), (.double, .arith .mul), (.double, .augment .pow), (.double, .assign),
    (.double, .compare .eq), (.single, .str "it's\n\\"), (.double, .str "\"ä'\""),
    (.double, .int 9223372036854775807), (.double, .name "größe_1"), (.double, .closeParen),
    (.double, .separator), (.double, .not)]

example : String.ofList (rowSource mixedRow) =
    "* * **= = == 'it\\'s\\n\\\\' \"\\\"ä'\\\"\" 9223372036854775807 größe_1 ) ; not" := by
  decide

/-- The mixed row is read back. -/
theorem Lexemes.ofText_rowSource_of_mixed :
    (∀ k ∈ mixedRow, k.2.isWritable) ∧
      Lexemes.ofText (rowSource mixedRow) = .ok ⟨mixedRow.map fun k => ⟨1, k.2⟩, 1⟩ ∧
      Lexemes.ofText? (rowSource mixedRow) = some (.ok ⟨mixedRow.map fun k => ⟨1, k.2⟩, 1⟩) := by
  have hwritable : ∀ k ∈ mixedRow, k.2.isWritable := List.all_eq_true.1 (by decide)
  exact ⟨hwritable, Lexemes.ofText_rowSource hwritable⟩

end CalcDoc.Script
