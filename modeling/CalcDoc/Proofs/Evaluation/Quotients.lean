import CalcDoc.Proofs.Definedness.Operators
import Mathlib.Data.Rat.Floor

/-!
# Quotients of integers

The quotient of two integers that is rounded down is the floor of the rational quotient, whatever
the signs. It is made from the quotient that belongs to a remainder which is not negative, and only
one quotient leaves the range.

- `fdiv_eq_floor`: the floor of a rational quotient, in integers.
- `exists_toInt_floor_iff`: the one quotient whose floor is no integer of the language.
- `Value.floorDiv_ints`: what `//` answers for two integers.
-/

namespace CalcDoc.Script

theorem fdiv_eq_floor (x y : Int) : x.fdiv y = ⌊(x : ℚ) / y⌋ := by
  have hnonneg : ∀ (x : Int) (n : Nat), x.fdiv n = ⌊(x : ℚ) / (n : Int)⌋ := by
    intro x n
    rw [Int.fdiv_eq_ediv_of_nonneg x (Int.natCast_nonneg n), Int.cast_natCast,
      Rat.floor_intCast_div_natCast]
  by_cases hy : 0 ≤ y
  · obtain ⟨n, rfl⟩ := Int.eq_ofNat_of_zero_le hy
    exact hnonneg x n
  · -- both signs are turned round, which changes no quotient
    obtain ⟨n, hn⟩ := Int.eq_ofNat_of_zero_le (show 0 ≤ -y by omega)
    obtain rfl : y = -n := by omega
    calc x.fdiv (-n)
        = (-x).fdiv n := by rw [← Int.neg_fdiv_neg, Int.neg_neg]
      _ = ⌊((-x : Int) : ℚ) / (n : Int)⌋ := hnonneg (-x) n
      _ = ⌊(x : ℚ) / (-n : Int)⌋ := by rw [Int.cast_neg, Int.cast_neg, neg_div, div_neg]

section Floors

variable {a b : Int64}

/-- Only the quotient of the lowest integer and -1 has a floor outside of the range. -/
theorem exists_toInt_floor_iff :
    (∃ q : Int64, q.toInt = ⌊(a.toInt : ℚ) / b.toInt⌋) ↔
      ¬ (a.toInt = -0x8000000000000000 ∧ b.toInt = -1) := by
  rw [← fdiv_eq_floor]
  constructor
  · rintro ⟨q, hq⟩ ⟨ha, hb⟩
    have hlt := q.toInt_lt
    rw [hq, ha, hb] at hlt
    exact absurd hlt (by decide)
  · intro hcorner
    have hrange : InRange (a.toInt.fdiv b.toInt) := by
      by_cases hb : b.toInt = -1
      · have hlow := a.le_toInt
        have hne : a.toInt ≠ -0x8000000000000000 := fun ha => hcorner ⟨ha, hb⟩
        have hneg : a.toInt.fdiv b.toInt = -a.toInt := by
          rw [hb, fdiv_of_neg (by decide), if_pos (emod_eq_zero_of_neg_one rfl), Int.ediv_neg,
            Int.ediv_one]
        have hup := a.toInt_lt
        constructor <;> omega
      · exact fdiv_range (toInt_range a) hb
    exact ⟨Int64.ofInt _, Int64.toInt_ofInt_of_le hrange.1 hrange.2⟩

/-- The three ways in which a floor division ends. -/
theorem floorDiv_cases (a b : Int64) :
    b = 0 ∧ (Value.int a).arith .floorDiv (.int b) = .error .divisionByZero ∨
    b ≠ 0 ∧ (∃ q : Int64, q.toInt = ⌊(a.toInt : ℚ) / b.toInt⌋ ∧
      (Value.int a).arith .floorDiv (.int b) = .ok (.int q)) ∨
    b ≠ 0 ∧ (∀ q : Int64, q.toInt ≠ ⌊(a.toInt : ℚ) / b.toInt⌋) ∧
      (Value.int a).arith .floorDiv (.int b) = .error (.overflow (.arith .floorDiv)) := by
  have hints : (Value.int a).arith .floorDiv (.int b) = intArith .floorDiv a b := rfl
  rw [hints, intArith]
  by_cases hb : b = 0
  · exact .inl ⟨hb, if_pos hb⟩
  · rw [if_neg hb, checkedInt, fdiv_eq_floor]
    cases hq : int64? ⌊(a.toInt : ℚ) / b.toInt⌋ with
    | some q => exact .inr (.inl ⟨hb, q, (toInt_of_int64? hq).1, rfl⟩)
    | none =>
      refine .inr (.inr ⟨hb, fun q heq => ?_, rfl⟩)
      rw [← heq, int64?_of_range (toInt_range q)] at hq
      cases hq

end Floors

/-- What `//` answers for two integers: the floor of their quotient if it is an integer of the
language, an overflow if it is none, and without a divisor the error that says so. Only one quotient
overflows. The quotient that the floor is made from, its remainder and the correction are defined
for all operands. -/
theorem Value.floorDiv_ints (a b : Int64) :
    let answer := (Value.int a).arith .floorDiv (.int b)
    (Value.int a).binary? (.arith .floorDiv) (.int b) = total answer ∧
    (Error.overflow (.arith .floorDiv)).message = "integer overflow in //" ∧
    (answer = .error .divisionByZero ↔ b = 0) ∧
    (b ≠ 0 → ∀ q : Int64, q.toInt = ⌊(a.toInt : ℚ) / b.toInt⌋ → answer = .ok (.int q)) ∧
    (b ≠ 0 → (∀ q : Int64, q.toInt ≠ ⌊(a.toInt : ℚ) / b.toInt⌋) →
      answer = .error (.overflow (.arith .floorDiv))) ∧
    (answer = .error (.overflow (.arith .floorDiv)) ↔
      a.toInt = -0x8000000000000000 ∧ b.toInt = -1) := by
  intro answer
  refine ⟨Value.arith?_eq .floorDiv (.int a) (.int b), rfl, ?_⟩
  rcases floorDiv_cases a b with ⟨hb, h⟩ | ⟨hb, ⟨q, hq, h⟩⟩ | ⟨hb, hnone, h⟩
  · simp [answer, h, hb]
  · have hcorner := exists_toInt_floor_iff.1 ⟨q, hq⟩
    refine ⟨by simp [answer, h, hb], fun _ q' hq' => ?_, fun _ hnone => absurd hq (hnone q), ?_⟩
    · rw [show answer = _ from h, Int64.toInt_inj.1 (hq.trans hq'.symm)]
    · simp [answer, h, hcorner]
  · have hcorner := not_not.1 (mt exists_toInt_floor_iff.2 (not_exists.2 hnone))
    exact ⟨by simp [answer, h, hb], fun _ q hq => absurd hq (hnone q), fun _ _ => h,
      fun _ => hcorner, fun _ => h⟩

/-- Both signs of a quotient that is not exact, the quotient that overflows, and a division by
zero. -/
theorem Value.floorDiv_ints_of_signs :
    (Value.int 7).arith .floorDiv (.int (-2)) = .ok (.int (-4)) ∧
    (Value.int (-7)).arith .floorDiv (.int 2) = .ok (.int (-4)) ∧
    (Value.int (-0x8000000000000000)).arith .floorDiv (.int (-1)) =
      .error (.overflow (.arith .floorDiv)) ∧
    (Value.int 7).arith .floorDiv (.int 0) = .error .divisionByZero := by
  refine ⟨?_, ?_, ?_, ?_⟩
  · obtain ⟨-, -, -, hfloor, -⟩ := Value.floorDiv_ints 7 (-2)
    refine hfloor (by decide) (-4) ?_
    rw [← fdiv_eq_floor]
    decide
  · obtain ⟨-, -, -, hfloor, -⟩ := Value.floorDiv_ints (-7) 2
    refine hfloor (by decide) (-4) ?_
    rw [← fdiv_eq_floor]
    decide
  · obtain ⟨-, -, -, -, -, hcorner⟩ := Value.floorDiv_ints (-0x8000000000000000) (-1)
    exact hcorner.2 ⟨by decide, by decide⟩
  · obtain ⟨-, -, hzero, -⟩ := Value.floorDiv_ints 7 0
    exact hzero.2 rfl

end CalcDoc.Script
