import CalcDoc.Number.Reader
import Mathlib

/-!
# Numerals

An integer is written with its decimal digits and, if it is negative, a minus sign.

- `toDigits_mul_pow`: a power of ten adds zeros.
- `length_toDigits_spec`: how many digits a number has.
- `exists_toDigits`: the first digit of a number and the others, which are read as the number.
- `toList_toString_int`: the characters of an integer.
- `isDigit_or_minus_of_mem`, `ne_toString_of_mem`: nothing but digits and minus signs is in them.
-/

namespace CalcDoc

/-- A power of ten adds zeros. -/
theorem toDigits_mul_pow {n : Nat} (hn : 0 < n) (k : Nat) :
    Nat.toDigits 10 (n * 10 ^ k) = Nat.toDigits 10 n ++ List.replicate k '0' := by
  induction k with
  | zero => simp
  | succ k ih =>
    have hten : 10 ≤ n * 10 ^ k * 10 := Nat.le_mul_of_pos_left 10 (by positivity)
    rw [Nat.pow_succ, ← Nat.mul_assoc, Nat.toDigits_of_base_le (by decide) hten,
      Nat.mul_div_cancel _ (by decide), Nat.mul_mod_left, ih, List.replicate_succ',
      List.append_assoc]
    rfl

/-- The count of the digits says between which powers of ten a number lies. -/
theorem length_toDigits_spec {n : Nat} (hn : 0 < n) :
    10 ^ ((Nat.toDigits 10 n).length - 1) ≤ n ∧ n < 10 ^ (Nat.toDigits 10 n).length := by
  have hpos : 0 < (Nat.toDigits 10 n).length := List.length_pos_iff.2 Nat.toDigits_ne_nil
  have hiff : ∀ k, 0 < k → ((Nat.toDigits 10 n).length ≤ k ↔ n < 10 ^ k) := fun k hk =>
    Nat.length_toDigits_le_iff (by decide) hk
  refine ⟨Nat.le_of_not_lt fun hlt => ?_, (hiff _ hpos).1 (Nat.le_refl _)⟩
  rcases Nat.eq_zero_or_pos ((Nat.toDigits 10 n).length - 1) with hzero | hmore
  · rw [hzero] at hlt
    omega
  · have := (hiff _ hmore).2 hlt
    omega

/-- A number has a first digit, and the value of its digits is the number. -/
theorem exists_toDigits (n : Nat) : ∃ c ds, Nat.toDigits 10 n = c :: ds ∧ c.isDigit ∧
    (∀ d ∈ ds, d.isDigit) ∧ digitsValue (c :: ds) = n := by
  have hdigits : ∀ c ∈ Nat.toDigits 10 n, c.isDigit := fun c hc =>
    Nat.isDigit_of_mem_toDigits (by decide) (by decide) hc
  have hvalue : digitsValue (Nat.toDigits 10 n) = n := Nat.ofDigitChars_ten_toDigits
  cases hds : Nat.toDigits 10 n with
  | nil => exact absurd hds Nat.toDigits_ne_nil
  | cons c ds =>
    rw [hds] at hdigits hvalue
    obtain ⟨hc, hrest⟩ := List.forall_mem_cons.1 hdigits
    exact ⟨c, ds, rfl, hc, hrest, hvalue⟩

theorem toList_toString_nat (n : Nat) : (toString n).toList = Nat.toDigits 10 n := by
  rw [Nat.toString_eq_repr, Nat.toList_repr]

/-- The characters of an integer. -/
theorem toList_toString_int (z : Int) : (toString z).toList =
    if z < 0 then '-' :: Nat.toDigits 10 z.natAbs else Nat.toDigits 10 z.natAbs := by
  cases z with
  | ofNat n =>
    have hpos : ¬Int.ofNat n < 0 := Int.not_lt.2 (Int.natCast_nonneg n)
    rw [if_neg hpos]
    exact toList_toString_nat n
  | negSucc n =>
    rw [if_pos (Int.negSucc_lt_zero n)]
    show ("-" ++ toString (n + 1)).toList = _
    rw [String.toList_append, toList_toString_nat]
    rfl

theorem toString_neg {n : Nat} (hn : 0 < n) : toString (-(n : Int)) = "-" ++ toString n := by
  cases n with
  | zero => exact absurd hn (lt_irrefl 0)
  | succ n => rfl

/-- Nothing but digits and minus signs is written of an integer. -/
theorem isDigit_or_minus_of_mem {z : Int} {c : Char} (h : c ∈ (toString z).toList) :
    c.isDigit ∨ c = '-' := by
  have hdigits : ∀ n, c ∈ Nat.toDigits 10 n → c.isDigit := fun n hc =>
    Nat.isDigit_of_mem_toDigits (by decide) (by decide) hc
  rw [toList_toString_int] at h
  split at h
  · exact (List.mem_cons.1 h).symm.imp_left (hdigits _)
  · exact .inl (hdigits _ h)

/-- A string with any other character in it is not an integer. -/
theorem ne_toString_of_mem {s : String} {c : Char} (hc : c ∈ s.toList) (hdigit : ¬c.isDigit)
    (hminus : c ≠ '-') (z : Int) : s ≠ toString z := by
  intro heq
  rw [heq] at hc
  rcases isDigit_or_minus_of_mem hc with h | h
  · exact hdigit h
  · exact hminus h

end CalcDoc
