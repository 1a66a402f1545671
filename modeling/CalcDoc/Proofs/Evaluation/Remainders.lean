import CalcDoc.Proofs.Evaluation.Quotients

/-!
# Remainders of integers

The remainder that belongs to the floor of a quotient has the sign of the divisor and is smaller
than it, so it is always an integer of the language. It is made from the remainder that has the sign
of the dividend, and that one is looked up together with its quotient: where the quotient is out of
range, the answer is an overflow although the remainder is zero.

- `fmod_eq_sub_floor`, `fmod_sign`, `natAbs_fmod_lt`: the remainder to a floor.
- `exists_remainder`: it is an integer of the language.
- `Value.mod_ints`: what `%` answers for two integers.
- `Value.mod_overflows`: the remainder that is in range and is not answered.
-/

namespace CalcDoc.Script

theorem fmod_eq_sub_floor (x y : Int) : x.fmod y = x - y * ⌊(x : ℚ) / y⌋ := by
  rw [Int.fmod_def, fdiv_eq_floor]

section Signs

variable {y : Int}

/-- The remainder is on the divisor's side of zero, and smaller. -/
theorem fmod_between (x : Int) (hy : y ≠ 0) :
    0 < y ∧ 0 ≤ x.fmod y ∧ x.fmod y < y ∨ y < 0 ∧ y < x.fmod y ∧ x.fmod y ≤ 0 := by
  rcases Int.lt_or_gt_of_ne hy with hneg | hpos
  · -- both signs are turned round, and the sign of the remainder with them
    have hnonneg := Int.fmod_nonneg_of_pos (-x) (show 0 < -y by omega)
    have hlt := Int.fmod_lt_of_pos (-x) (show 0 < -y by omega)
    rw [Int.neg_fmod_neg] at hnonneg hlt
    exact .inr ⟨hneg, by omega, by omega⟩
  · exact .inl ⟨hpos, Int.fmod_nonneg_of_pos x hpos, Int.fmod_lt_of_pos x hpos⟩

theorem fmod_sign (x : Int) (hy : y ≠ 0) : x.fmod y = 0 ∨ (x.fmod y).sign = y.sign := by
  rcases fmod_between x hy with ⟨hpos, hnonneg, -⟩ | ⟨hneg, -, hnonpos⟩
  · rcases hnonneg.eq_or_lt with hzero | hlt
    · exact .inl hzero.symm
    · exact .inr (by rw [Int.sign_eq_one_of_pos hlt, Int.sign_eq_one_of_pos hpos])
  · rcases hnonpos.eq_or_lt with hzero | hlt
    · exact .inl hzero
    · exact .inr (by rw [Int.sign_eq_neg_one_of_neg hlt, Int.sign_eq_neg_one_of_neg hneg])

theorem natAbs_fmod_lt (x : Int) (hy : y ≠ 0) : (x.fmod y).natAbs < y.natAbs := by
  rcases fmod_between x hy with ⟨-, hnonneg, hlt⟩ | ⟨-, hlt, hnonpos⟩ <;> omega

end Signs

section Remainders

variable {a b : Int64}

/-- The remainder to a floor is an integer of the language. -/
theorem exists_remainder (a : Int64) (hb : b ≠ 0) : ∃ r : Int64,
    r.toInt = a.toInt - b.toInt * ⌊(a.toInt : ℚ) / b.toInt⌋ ∧
      (r = 0 ∨ r.toInt.sign = b.toInt.sign) ∧ r.toInt.natAbs < b.toInt.natAbs := by
  have hb0 := mt toInt_eq_zero.1 hb
  obtain ⟨r, hr⟩ := exists_toInt (fmod_range (x := a.toInt) (toInt_range b) hb0)
  refine ⟨r, by rw [hr, fmod_eq_sub_floor], ?_, ?_⟩
  · rw [← toInt_eq_zero, hr]
    exact fmod_sign a.toInt hb0
  · rw [hr]
    exact natAbs_fmod_lt a.toInt hb0

theorem mod_zero (a : Int64) : (Value.int a).arith .mod (.int 0) = .error .divisionByZero := rfl

theorem mod_lowest (ha : a.toInt = -0x8000000000000000) (hb : b.toInt = -1) :
    (Value.int a).arith .mod (.int b) = .error (.overflow (.arith .mod)) := by
  have hb0 : ¬ b = 0 := fun h => by
    rw [h] at hb
    exact absurd hb (by decide)
  show intArith .mod a b = _
  rw [intArith, if_neg hb0, if_pos ⟨ha, hb⟩]

/-- In range of the quotient, the answer is the remainder. -/
theorem mod_of_remainder (hb : b ≠ 0) (hnot : ¬ (a.toInt = -0x8000000000000000 ∧ b.toInt = -1))
    {r : Int64} (hr : r.toInt = a.toInt - b.toInt * ⌊(a.toInt : ℚ) / b.toInt⌋) :
    (Value.int a).arith .mod (.int b) = .ok (.int r) := by
  show intArith .mod a b = _
  rw [intArith, if_neg hb, if_neg hnot, fmod_eq_sub_floor, ← hr,
    checkedInt_of_range _ (toInt_range r), Int64.ofInt_toInt]

end Remainders

/-- What `%` answers for two integers: without a divisor the error that says so, and otherwise the
remainder to the floor of the quotient, which is zero or has the sign of the divisor, is smaller
than the divisor and so is always an integer of the language. Only the remainder of the lowest
integer and -1, which is zero, is not answered: its quotient is out of range. The remainder that all
are made from and its correction are defined for all operands. -/
theorem Value.mod_ints (a b : Int64) :
    let answer := (Value.int a).arith .mod (.int b)
    let lowest := a.toInt = -0x8000000000000000 ∧ b.toInt = -1
    (Value.int a).binary? (.arith .mod) (.int b) = total answer ∧
    (answer = .error .divisionByZero ↔ b = 0) ∧
    (b ≠ 0 → ∃ r : Int64,
      r.toInt = a.toInt - b.toInt * ⌊(a.toInt : ℚ) / b.toInt⌋ ∧
      (r = 0 ∨ r.toInt.sign = b.toInt.sign) ∧
      r.toInt.natAbs < b.toInt.natAbs ∧
      (¬ lowest → answer = .ok (.int r))) ∧
    (answer = .error (.overflow (.arith .mod)) ↔ lowest) := by
  intro answer lowest
  refine ⟨Value.arith?_eq .mod (.int a) (.int b), ?_⟩
  by_cases hb : b = 0
  · have hzero : answer = .error .divisionByZero := by
      show (Value.int a).arith .mod (.int b) = _
      rw [hb, mod_zero]
    have hnot : ¬ lowest := by
      simp [lowest, hb]
    simp [hzero, hb, hnot]
  · obtain ⟨r, hr, hsign, hlt⟩ := exists_remainder a hb
    by_cases hlow : lowest
    · have hoverflow : answer = .error (.overflow (.arith .mod)) := mod_lowest hlow.1 hlow.2
      refine ⟨?_, fun _ => ⟨r, hr, hsign, hlt, fun h => absurd hlow h⟩, ?_⟩
      · simp [hoverflow, hb]
      · simp [hoverflow, hlow]
    · have hok : answer = .ok (.int r) := mod_of_remainder hb hlow hr
      refine ⟨?_, fun _ => ⟨r, hr, hsign, hlt, fun _ => hok⟩, ?_⟩
      · simp [hok, hb]
      · simp [hok, hlow]

/-- A remainder with a negative divisor, one of a negative dividend, and a division by zero. -/
theorem Value.mod_ints_of_signs :
    (Value.int 7).arith .mod (.int (-3)) = .ok (.int (-2)) ∧
    (Value.int (-7)).arith .mod (.int 3) = .ok (.int 2) ∧
    (Value.int 7).arith .mod (.int 0) = .error .divisionByZero := by
  refine ⟨?_, ?_, ?_⟩
  · obtain ⟨-, -, hremainder, -⟩ := Value.mod_ints 7 (-3)
    obtain ⟨r, hr, -, -, hok⟩ := hremainder (by decide)
    rw [← fmod_eq_sub_floor, show (7 : Int64).toInt.fmod (-3 : Int64).toInt = (-2 : Int64).toInt by
      decide, Int64.toInt_inj] at hr
    rw [hok (by decide), hr]
  · obtain ⟨-, -, hremainder, -⟩ := Value.mod_ints (-7) 3
    obtain ⟨r, hr, -, -, hok⟩ := hremainder (by decide)
    rw [← fmod_eq_sub_floor, show (-7 : Int64).toInt.fmod (3 : Int64).toInt = (2 : Int64).toInt by
      decide, Int64.toInt_inj] at hr
    rw [hok (by decide), hr]
  · obtain ⟨-, hzero, -⟩ := Value.mod_ints 7 0
    exact hzero.2 rfl

/-- The remainder of the lowest integer and -1 is zero, and the answer is an overflow. -/
theorem Value.mod_overflows :
    (Value.int (-0x8000000000000000)).arith .mod (.int (-1)) =
      .error (.overflow (.arith .mod)) ∧
    (-0x8000000000000000 : Int64).toInt -
        (-1 : Int64).toInt * ⌊((-0x8000000000000000 : Int64).toInt : ℚ) / (-1 : Int64).toInt⌋ =
      (0 : Int64).toInt := by
  refine ⟨mod_lowest (by decide) (by decide), ?_⟩
  rw [← fmod_eq_sub_floor]
  decide

end CalcDoc.Script
