import CalcDoc.Json.Reader

/-!
# Quoted strings are read back

Inside quotes a character stands for itself or is an escape, and either way it is read as that
character, whatever follows.

- `Json.escape_cases`: the two ways in which a character is written.
- `Json.readChars_escape`: one character that has been written is read.
- `Json.readString_quote`: so is a whole string, with any blanks before it.
-/

namespace CalcDoc.Json

/-! ## Escapes -/

theorem hexValue?_hexDigit {n : Nat} (h : n < 16) : hexValue? (hexDigit n) = some n := by
  have hall : ∀ n < 16, hexValue? (hexDigit n) = some n := by decide
  exact hall n h

/-- Two hexadecimal digits are enough for a control character. -/
theorem readEscape_control {c : Char} (h : c.toNat < 0x20) (checked : Bool) (t : Text) :
    readEscape checked ('u' :: '0' :: '0' :: hexDigit (c.toNat / 16) ::
      hexDigit (c.toNat % 16) :: t) = some (c, t) := by
  have hzero : hexValue? '0' = some 0 := hexValue?_hexDigit (n := 0) (by decide)
  have hhigh := hexValue?_hexDigit (n := c.toNat / 16) (by omega)
  have hlow := hexValue?_hexDigit (n := c.toNat % 16) (by omega)
  have hvalue : ((0 * 16 + 0) * 16 + c.toNat / 16) * 16 + c.toNat % 16 = c.toNat := by omega
  have hread : readHex4 ('0' :: '0' :: hexDigit (c.toNat / 16) :: hexDigit (c.toNat % 16) :: t) =
      some (c.toNat, t) := by
    simp only [readHex4, hzero, hhigh, hlow, hvalue]
  -- a control character is no half of a surrogate pair
  have hnoLow : isLowSurrogate c.toNat = false := by
    rw [isLowSurrogate, decide_eq_false (by omega), Bool.false_and]
  have hnoHigh : isHighSurrogate c.toNat = false := by
    rw [isHighSurrogate, decide_eq_false (by omega), Bool.false_and]
  show readUnicodeEscape checked _ = _
  simp [readUnicodeEscape, hread, hnoLow, hnoHigh, Char.ofNat_toNat]

/-- A character is written as an escape that is read as that character, or as itself. -/
theorem escape_cases (c : Char) :
    (∃ e, escape c = '\\' :: e ∧ ∀ checked t, readEscape checked (e ++ t) = some (c, t)) ∨
      (escape c = [c] ∧ c ≠ '"' ∧ c ≠ '\\' ∧ ¬c.toNat < 0x20) := by
  unfold escape
  split
  · next h => exact .inl ⟨['"'], rfl, fun _ _ => by rw [h]; rfl⟩
  split
  · next h => exact .inl ⟨['\\'], rfl, fun _ _ => by rw [h]; rfl⟩
  split
  · next h => exact .inl ⟨['b'], rfl, fun _ _ => by rw [h]; rfl⟩
  split
  · next h => exact .inl ⟨['f'], rfl, fun _ _ => by rw [h]; rfl⟩
  split
  · next h => exact .inl ⟨['n'], rfl, fun _ _ => by rw [h]; rfl⟩
  split
  · next h => exact .inl ⟨['r'], rfl, fun _ _ => by rw [h]; rfl⟩
  split
  · next h => exact .inl ⟨['t'], rfl, fun _ _ => by rw [h]; rfl⟩
  split
  · next h => exact .inl ⟨_, rfl, fun checked t => readEscape_control h checked t⟩
  · next hquote hslash _ _ _ _ _ hplain => exact .inr ⟨rfl, hquote, hslash, hplain⟩

/-! ## Strings -/

theorem readChars_slash {checked : Bool} {d : Char} {t rest : Text}
    (h : readEscape checked t = some (d, rest)) :
    readChars checked ('\\' :: t) = (readChars checked rest).map fun r => (d :: r.1, r.2) := by
  rw [readChars, if_neg (by decide), if_pos rfl]
  split
  · next hnone => rw [h] at hnone; cases hnone
  · next hsome =>
    rw [h] at hsome
    cases hsome
    cases readChars checked rest <;> rfl

theorem readChars_plain {c : Char} (hquote : c ≠ '"') (hslash : c ≠ '\\')
    (hplain : ¬c.toNat < 0x20) (checked : Bool) (t : Text) :
    readChars checked (c :: t) = (readChars checked t).map fun r => (c :: r.1, r.2) := by
  rw [readChars, if_neg hquote, if_neg hslash, if_neg hplain]
  cases readChars checked t <;> rfl

/-- A character that has been written is read. -/
theorem readChars_escape (checked : Bool) (c : Char) (t : Text) :
    readChars checked (escape c ++ t) = (readChars checked t).map fun r => (c :: r.1, r.2) := by
  rcases escape_cases c with ⟨e, he, hread⟩ | ⟨hself, hquote, hslash, hplain⟩
  · rw [he, List.cons_append]
    exact readChars_slash (hread checked t)
  · rw [hself, List.singleton_append]
    exact readChars_plain hquote hslash hplain checked t

/-- A text that has been written is read up to the closing quote. -/
theorem readChars_escaped (checked : Bool) (s rest : Text) :
    readChars checked (s.flatMap escape ++ '"' :: rest) = some (s, rest) := by
  induction s with
  | nil =>
    show readChars checked ('"' :: rest) = _
    rw [readChars, if_pos rfl]
  | cons c s ih => rw [List.flatMap_cons, List.append_assoc, readChars_escape, ih, Option.map_some]

/-- A string that has been written is read, with any blanks before it. -/
theorem readString_quote {checked : Bool} {s : String} {t rest : Text}
    (h : Text.skipSpace t = quote s ++ rest) : readString checked t = some (s, rest) := by
  have hbody : quote s ++ rest = '"' :: (s.toList.flatMap escape ++ '"' :: rest) := by
    rw [quote, List.append_assoc, List.singleton_append, List.cons_append]
  rw [readString, h, hbody]
  show (readChars checked _).map _ = _
  rw [readChars_escaped, Option.map_some]
  exact congrArg (fun x => some (x, rest)) (String.ofList_toList)

/-- The name of a field is read with the colon behind it. -/
theorem readName_quote {checked : Bool} {x : String} {t rest : Text}
    (h : Text.skipSpace t = quote x ++ ':' :: rest) : readName checked t = some (x, rest) := by
  have hcolon : Text.skipSpace (':' :: rest) = ':' :: rest := rfl
  simp only [readName, readString_quote h, hcolon]

end CalcDoc.Json
