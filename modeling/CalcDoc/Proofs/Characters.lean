import CalcDoc.Script.Lexemes

/-!
# Classes of characters

Which classes of characters have no character in common.

- `ne_of_class`, `notMem_of_class`: a character of a class is none outside of it.
- `isBlank_of_isDigit`, `isBlank_of_isNameStart`, `isDigit_of_isNameStart`: numerals and names begin
  with no blank, and names with no digit.
-/

namespace CalcDoc

/-- A character of a class is none outside of it. -/
theorem ne_of_class {p : Char → Bool} {c d : Char} (hc : p c) (hd : p d = false) : c ≠ d := by
  rintro rfl
  rw [hd] at hc
  cases hc

/-- The code point of a character of a class is none of a list that has none of the class. -/
theorem notMem_of_class {p : Char → Bool} {c : Char} {codes : List Nat} (hc : p c)
    (hcodes : ∀ n ∈ codes, p (Char.ofNat n) = false) : c.toNat ∉ codes := by
  intro hmem
  have := hcodes c.toNat hmem
  rw [Char.ofNat_toNat, hc] at this
  cases this

/-- The code points of the blanks. -/
def blankCodes : List Nat :=
  [9, 10, 11, 12, 13, 0x20, 0x85, 0xA0, 0x1680, 0x2000, 0x2001, 0x2002, 0x2003, 0x2004, 0x2005,
    0x2006, 0x2007, 0x2008, 0x2009, 0x200A, 0x2028, 0x2029, 0x202F, 0x205F, 0x3000]

/-- A class that has no code point of a blank has no blank. -/
theorem isBlank_of_class {p : Char → Bool} {c : Char} (hc : p c)
    (hcodes : ∀ n ∈ blankCodes, p (Char.ofNat n) = false) : isBlank c = false := by
  refine Bool.eq_false_iff.2 fun hb => notMem_of_class hc hcodes ?_
  simp only [isBlank, Bool.or_eq_true, Bool.and_eq_true, decide_eq_true_eq, beq_iff_eq] at hb
  simp only [blankCodes, List.mem_cons, List.not_mem_nil]
  omega

theorem isBlank_of_isDigit {c : Char} (hc : c.isDigit) : isBlank c = false :=
  isBlank_of_class hc (by decide)

theorem isBlank_of_isNameStart {c : Char} (hc : Script.isNameStart c) : isBlank c = false :=
  isBlank_of_class hc (by decide +kernel)

theorem isDigit_of_isNameStart {c : Char} (hc : Script.isNameStart c) : c.isDigit = false := by
  refine Bool.eq_false_iff.2 fun hd => ?_
  obtain ⟨hlow, hhigh⟩ := Char.isDigit_iff_toNat.1 hd
  have hcodes : ∀ n ∈ List.range' 48 10, Script.isNameStart (Char.ofNat n) = false := by decide
  exact notMem_of_class hc hcodes (List.mem_range'_1.2 ⟨hlow, Nat.lt_succ_of_le hhigh⟩)

namespace Script

/-- No symbol and no string begins with a digit. -/
theorem read_of_isDigit {c : Char} (hc : c.isDigit) (t : Text) :
    Token.read c t = readNumber c t := by
  have other {d : Char} (hd : d.isDigit = false) : c ≠ d := ne_of_class hc hd
  have hquote : ¬(c = '"' ∨ c = '\'') :=
    not_or.2 ⟨other (by decide), other (by decide)⟩
  unfold Token.read
  split
  -- a digit is none of the symbols
  all_goals first
    | exact absurd rfl (other (by decide))
    | skip
  rw [if_neg hquote, if_pos hc]

/-- No symbol, no string and no number begins like a name. -/
theorem read_of_isNameStart {c : Char} (hc : isNameStart c) (t : Text) :
    Token.read c t = .ok (readWord c t) := by
  have other {d : Char} (hd : isNameStart d = false) : c ≠ d := ne_of_class hc hd
  have hquote : ¬(c = '"' ∨ c = '\'') :=
    not_or.2 ⟨other (by decide), other (by decide)⟩
  unfold Token.read
  split
  all_goals first
    | exact absurd rfl (other (by decide))
    | skip
  rw [if_neg hquote, if_neg (by simp [isDigit_of_isNameStart hc]), if_pos hc]

end Script

end CalcDoc
