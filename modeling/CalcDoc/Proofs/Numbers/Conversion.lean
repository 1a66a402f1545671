import CalcDoc.Proofs.Numbers.Nearest
import CalcDoc.Proofs.Numbers.Ranges

/-!
# From integers to doubles

Bits that are too many for a double are shifted out one by one. What has been shifted out is kept in
two bits, and they suffice to round to the nearest number.

- `Residue`: what the two bits say.
- `valueOf?_round`: the number of a rounded double.
- `value?_ofInt`, `value?_intToFloat`: the double of an integer stands for the nearest number of 53
  significant bits.
-/

namespace CalcDoc.Binary64

open Float.Model (UnpackedFloat Format totalExponent)
open Float.Model.UnpackedFloat

/-! ## Shifting -/

/-- What is left of `n` after `k` shifts. One bit says whether the rest is half of a unit or more,
the other whether it is between these and zero. -/
structure Residue (n k : Nat) (em : ExtendedMantissa) : Prop where
  quotient : em.mantissa = n / 2 ^ k
  half : em.roundBit ↔ 2 ^ k ≤ 2 * (n % 2 ^ k)
  between : em.stickyBit ↔ n % 2 ^ k ≠ 0 ∧ 2 * (n % 2 ^ k) ≠ 2 ^ k

namespace Residue

variable {n k : Nat} {em : ExtendedMantissa}

theorem start (n : Nat) : Residue n 0 (.ofMantissaAndAccuracy n .exact) where
  quotient := (Nat.div_one n).symm
  half := by simp [ExtendedMantissa.ofMantissaAndAccuracy, Nat.mod_one]
  between := by simp [ExtendedMantissa.ofMantissaAndAccuracy, Nat.mod_one]

theorem step (h : Residue n k em) : Residue n (k + 1) em.shiftRightOne := by
  have hpos := Nat.two_pow_pos k
  have hlt := Nat.mod_lt n hpos
  have hmod : n % 2 ^ (k + 1) = n % 2 ^ k + 2 ^ k * (n / 2 ^ k % 2) := by
    rw [Nat.pow_succ, Nat.mod_mul]
  refine ⟨?_, ?_, ?_⟩
  · show em.mantissa / 2 = _
    rw [h.quotient, Nat.div_div_eq_div_mul, Nat.pow_succ]
  · show (em.mantissa % 2 != 0) = true ↔ _
    rw [bne_iff_ne, h.quotient, hmod, Nat.pow_succ]
    rcases Nat.mod_two_eq_zero_or_one (n / 2 ^ k) with hbit | hbit <;> rw [hbit] <;> omega
  · show (em.roundBit || em.stickyBit) = true ↔ _
    rw [Bool.or_eq_true, h.half, h.between, hmod, Nat.pow_succ]
    rcases Nat.mod_two_eq_zero_or_one (n / 2 ^ k) with hbit | hbit <;> rw [hbit] <;> omega

theorem run (n k : Nat) : Residue n k (ExtendedMantissa.ofMantissaAndAccuracy n .exact >>> k) := by
  induction k with
  | zero => exact start n
  | succ k ih => exact ih.step

/-- The two bits suffice for rounding. -/
theorem rounded (h : Residue n k em) : em.roundedMantissa = halfEven n k := by
  obtain ⟨m, half, between⟩ := em
  obtain ⟨hm, hhalf, hbetween⟩ := h
  dsimp only at hm hhalf hbetween
  cases half with
  | false =>
    have hlt : ¬ 2 ^ k ≤ 2 * (n % 2 ^ k) := fun h => nomatch hhalf.2 h
    have hn : halfEven n k = m := by
      rcases halfEven_cases n k with ⟨hc, hn⟩ | ⟨hc, hn⟩ | ⟨hc, hn⟩ <;> omega
    cases between <;> exact hn.symm
  | true =>
    have hle : 2 ^ k ≤ 2 * (n % 2 ^ k) := hhalf.1 rfl
    cases between with
    | false =>
      have heq : ¬ (n % 2 ^ k ≠ 0 ∧ 2 * (n % 2 ^ k) ≠ 2 ^ k) := fun h => nomatch hbetween.2 h
      have hn : halfEven n k = m + m % 2 := by
        have hpos := Nat.two_pow_pos k
        rcases halfEven_cases n k with ⟨hc, hn⟩ | ⟨hc, hn⟩ | ⟨hc, hn⟩ <;> omega
      exact hn.symm
    | true =>
      have hne := (hbetween.1 rfl).2
      have hn : halfEven n k = m + 1 := by
        rcases halfEven_cases n k with ⟨hc, hn⟩ | ⟨hc, hn⟩ | ⟨hc, hn⟩ <;> omega
      exact hn.symm

end Residue

/-! ## Rounding -/

section Rounding

variable {s : Sign} {m : Nat} {e : Int}

theorem targetExponent_binary64 (t : Int) :
    Format.binary64.targetExponent t = max (t - 53) (-1074) :=
  rfl

/-- All bits that are too many are shifted out, unless the number is very small. -/
theorem shiftToTargetExponent_eq (hlow : -1074 ≤ e + excess m) :
    shiftToTargetExponent .binary64 m e .exact =
      (ExtendedMantissa.ofMantissaAndAccuracy m .exact >>> excess m, e + excess m) := by
  have hshift : (Format.binary64.targetExponent (totalExponent m e) - e).toNat = excess m := by
    rw [targetExponent_binary64, totalExponent]
    unfold excess at hlow ⊢
    omega
  rw [shiftToTargetExponent, shiftToExponent, hshift]

/-- Rounding can make one bit too many, which is zero then. -/
theorem excess_halfEven (m : Nat) :
    excess (halfEven m (excess m)) = 0 ∨ halfEven m (excess m) = 2 ^ 53 := by
  rcases (halfEven_le m).lt_or_eq with hlt | heq
  · exact .inl (excess_of_lt hlt)
  · exact .inr heq

/-- Without bits that are too many, rounding changes nothing; else a second shift drops the bit
that rounding has made. -/
theorem round_eq (hm : 2 ^ 52 ≤ m) (hlow : -1074 ≤ e + excess m) :
    ∃ (r k : Nat) (hr : 0 < r),
      roundWithAccuracy .binary64 s m e .exact = .finite s r (e + excess m + k) hr ∧
        r * 2 ^ k = halfEven m (excess m) ∧ 2 ^ 52 ≤ r ∧ r < 2 ^ 53 ∧ k ≤ 1 := by
  have hfirst := (Residue.run m (excess m)).rounded
  generalize hr : halfEven m (excess m) = r at hfirst
  have hle : 2 ^ 52 ≤ r := hr ▸ le_halfEven hm
  have hsecond := (Residue.run r (excess r)).quotient
  have hround : roundWithAccuracy .binary64 s m e .exact =
      if h : r / 2 ^ excess r = 0 then .zero s
      else .finite s (r / 2 ^ excess r) (e + excess m + excess r) (Nat.pos_of_ne_zero h) := by
    simp only [roundWithAccuracy, shiftToTargetExponent_eq hlow, hfirst,
      shiftToTargetExponent_eq (show -1074 ≤ e + excess m + excess r by omega), hsecond]
  have hcarry : excess r ≤ 1 ∧ r / 2 ^ excess r * 2 ^ excess r = r := by
    rcases hr ▸ excess_halfEven m with hzero | rfl
    · rw [hzero]
      exact ⟨Nat.zero_le 1, by omega⟩
    · exact ⟨by decide, by decide⟩
  have hfull : 2 ^ 52 ≤ r / 2 ^ excess r :=
    (Nat.le_div_iff_mul_le (Nat.two_pow_pos _)).2 (pow_excess_le hle)
  have hlt : r / 2 ^ excess r < 2 ^ 53 := by
    rw [Nat.div_lt_iff_lt_mul (Nat.two_pow_pos _), ← Nat.pow_add]
    exact lt_pow_excess r
  rw [dif_neg (by omega)] at hround
  exact ⟨_, _, _, hround, hcarry.2, hfull, hlt, hcarry.1⟩

/-- The number of a rounded double. -/
theorem valueOf?_round (hm : 2 ^ 52 ≤ m) (hlow : -1074 ≤ e + excess m)
    (hhigh : e + excess m ≤ 970) :
    valueOf? (Float.Model.pack (roundWithAccuracy .binary64 .positive m e .exact)).unpack =
      some ((halfEven m (excess m) : ℚ) * 2 ^ (e + excess m)) := by
  obtain ⟨r, k, hpos, hround, hr, hfull, hlt, hk⟩ := round_eq hm hlow
  rw [hround, unpack_pack ⟨hlt, by omega, by omega, .inl hfull⟩, ← hr]
  show some (((r : Int) : ℚ) * 2 ^ (e + excess m + k)) = _
  rw [zpow_add₀ two_ne_zero, zpow_natCast]
  push_cast
  rw [mul_comm ((2 : ℚ) ^ (e + _)), mul_assoc]

/-- What has no bit too many is kept. -/
theorem round_of_lt (hm : 2 ^ 52 ≤ m) (hlt : m < 2 ^ 53) (hlow : -1074 ≤ e) :
    ∃ hr, roundWithAccuracy .binary64 s m e .exact = .finite s m e hr := by
  have hexcess := excess_of_lt hlt
  obtain ⟨r, k, hpos, hround, hr, hfull, -, hk⟩ :=
    round_eq (s := s) (e := e) hm (by omega)
  rw [hexcess, halfEven_of_mod (Nat.mod_one m), Nat.pow_zero, Nat.div_one] at hr
  have hzero : k = 0 := by
    rcases Nat.le_one_iff_eq_zero_or_eq_one.1 hk with hk | hk
    · exact hk
    · rw [hk] at hr
      omega
  rw [hzero, Nat.pow_zero, Nat.mul_one] at hr
  subst hr
  exact ⟨hpos, hround.trans (finite_congr rfl (by omega))⟩

end Rounding

/-! ## Conversion -/

section Conversion

variable {n j : Nat}

theorem log2_mul_pow (h : n ≠ 0) (j : Nat) : (n * 2 ^ j).log2 = n.log2 + j := by
  have hpos := Nat.two_pow_pos j
  refine (Nat.log2_eq_iff (Nat.mul_ne_zero h hpos.ne')).2 ⟨?_, ?_⟩
  · rw [Nat.pow_add]
    exact Nat.mul_le_mul_right _ (Nat.log2_self_le h)
  · rw [Nat.add_right_comm, Nat.pow_add]
    exact Nat.mul_lt_mul_of_pos_right Nat.lt_log2_self hpos

theorem excess_mul (h : 2 ^ 52 ≤ n) (j : Nat) : excess (n * 2 ^ j) = excess n + j := by
  have hn : n ≠ 0 := by omega
  have hlog : 52 ≤ n.log2 := (Nat.le_log2 hn).2 h
  unfold excess
  rw [log2_mul_pow hn]
  omega

/-- A number may have any zeros at its end before it is rounded. -/
theorem valueOf?_round_mul {e : Int} (hn : 2 ^ 52 ≤ n) (j : Nat) (hlow : -1074 ≤ e + excess n)
    (hhigh : e + excess n ≤ 970) :
    valueOf? (Float.Model.pack
        (roundWithAccuracy .binary64 .positive (n * 2 ^ j) (e - j) .exact)).unpack =
      some ((halfEven n (excess n) : ℚ) * 2 ^ (e + excess n)) := by
  have hexcess := excess_mul hn j
  have hle : 2 ^ 52 ≤ n * 2 ^ j := hn.trans (Nat.le_mul_of_pos_right n (Nat.two_pow_pos j))
  rw [valueOf?_round hle (by omega) (by omega), hexcess, halfEven_mul]
  congr 3
  omega

/-- The bits that a small number lacks are put in as zeros. -/
theorem full_of_lt (hpos : 0 < n) (hlt : n < 2 ^ 53) :
    2 ^ 52 ≤ n * 2 ^ (52 - n.log2) ∧ n * 2 ^ (52 - n.log2) < 2 ^ 53 := by
  have hlog : n.log2 < 53 := (Nat.log2_lt hpos.ne').2 hlt
  constructor
  · calc 2 ^ 52 = 2 ^ n.log2 * 2 ^ (52 - n.log2) := by rw [← Nat.pow_add]; congr 1; omega
      _ ≤ n * 2 ^ (52 - n.log2) := Nat.mul_le_mul_right _ (Nat.log2_self_le hpos.ne')
  · calc n * 2 ^ (52 - n.log2) < 2 ^ (n.log2 + 1) * 2 ^ (52 - n.log2) :=
          Nat.mul_lt_mul_of_pos_right Nat.lt_log2_self (Nat.two_pow_pos _)
      _ = 2 ^ 53 := by rw [← Nat.pow_add]; congr 1; omega

theorem unpack_toFloat (hpos : 0 < n) (hlt : n < 2 ^ 53) :
    ∃ hm, n.toUInt64.toFloat.toModel.unpack =
      .finite .positive (n * 2 ^ (52 - n.log2)) (-(52 - n.log2 : Nat)) hm := by
  obtain ⟨hfull, hroom⟩ := full_of_lt hpos hlt
  have hlog : n.log2 < 53 := (Nat.log2_lt hpos.ne').2 hlt
  have htarget : (0 - Format.binary64.targetExponent (totalExponent n 0)).toNat =
      52 - n.log2 := by
    rw [targetExponent_binary64, totalExponent]
    omega
  have hround : UnpackedFloat.normalize .binary64 n 0 .positive =
      roundWithAccuracy .binary64 .positive (n * 2 ^ (52 - n.log2)) (-(52 - n.log2 : Nat))
        .exact := by
    rw [UnpackedFloat.normalize, compare_gt_iff_gt.2 (Int.natCast_pos.2 hpos)]
    dsimp only
    rw [UnpackedFloat.round, Int.toNat_natCast, decreaseExponent, htarget, Nat.shiftLeft_eq,
      Int.zero_sub]
  obtain ⟨hr, hkept⟩ := round_of_lt (s := .positive) hfull hroom
    (show -1074 ≤ -((52 - n.log2 : Nat) : Int) by omega)
  have hnat : n.toUInt64.toNat = n := Nat.mod_eq_of_lt (by omega)
  refine ⟨hr, ?_⟩
  show (Float.Model.pack
    (UnpackedFloat.normalize .binary64 (n.toUInt64.toNat : Int) 0 .positive)).unpack = _
  rw [hnat, hround, hkept, unpack_pack ⟨hroom, by omega, by omega, .inl hfull⟩]

/-- Small numbers are multiplied by one. -/
theorem ofNat_of_lt (hpos : 0 < n) (hlt : n < 2 ^ 53) :
    Float.ofNat n = .ofModel (.pack (roundWithAccuracy .binary64 .positive
      (n * 2 ^ (52 - n.log2) * 2 ^ 52) (-(52 - n.log2 : Nat) - 52) .exact)) := by
  obtain ⟨hr, hunpack⟩ := unpack_toFloat hpos hlt
  have hone : Float.exactlyRepresentablePowersOfTen[0].toModel.unpack =
      .finite .positive (2 ^ 52) (-52) (by decide) := rfl
  show Float.ofScientific n false 0 = _
  rw [Float.ofScientific, dif_pos ⟨hlt, by decide⟩]
  show Float.ofModel (.pack (UnpackedFloat.mul .binary64 n.toUInt64.toFloat.toModel.unpack
    Float.exactlyRepresentablePowersOfTen[0].toModel.unpack)) = _
  rw [hunpack, hone]
  rfl

/-- Others get zeros at their end, as many as a double has bits. -/
theorem ofNat_of_ge (hle : 2 ^ 53 ≤ n) (hlt : n < 2 ^ 64) :
    Float.ofNat n =
      .ofModel (.pack (roundWithAccuracy .binary64 .positive (n * 2 ^ 53) (0 - 53) .exact)) := by
  have hn : n ≠ 0 := by omega
  have hsmall : ¬ (0 : Int) < -(2 ^ 11 + n.log2) := by omega
  show Float.ofScientific n false 0 = _
  rw [Float.ofScientific, dif_neg fun h => absurd h.1 (Nat.not_lt.2 hle)]
  show Float.ofModel (.pack (UnpackedFloat.ofScientific .binary64 n 0)) = _
  rw [UnpackedFloat.ofScientific, dif_neg hn, if_neg (by decide), if_neg hsmall,
    if_pos (Int.le_refl 0)]
  show Float.ofModel (.pack (roundWithAccuracy .binary64 .positive (n <<< 53 * 1) (-53 + 0)
    .exact)) = _
  rw [Nat.shiftLeft_eq, Nat.mul_one]
  rfl

/-- The number of a natural number's double. -/
theorem value?_ofNat (h : n < 2 ^ 64) : value? (Float.ofNat n) = some (nearestNat n : ℚ) := by
  rcases Nat.eq_zero_or_pos n with rfl | hpos
  · rfl
  rcases Nat.lt_or_ge n (2 ^ 53) with hlt | hle
  · obtain ⟨hfull, hroom⟩ := full_of_lt hpos hlt
    have hexcess := excess_of_lt hroom
    rw [ofNat_of_lt hpos hlt]
    refine (valueOf?_round_mul hfull 52 (by omega) (by omega)).trans ?_
    rw [hexcess, halfEven_of_mod (Nat.mod_one _), nearestNat_of_lt hlt, Nat.pow_zero, Nat.div_one,
      Int.natCast_zero, add_zero, zpow_neg, zpow_natCast]
    push_cast
    rw [mul_inv_cancel_right₀ (pow_ne_zero _ two_ne_zero)]
  · have hlog : n.log2 < 64 := (Nat.log2_lt hpos.ne').2 h
    have hexcess : excess n < 12 := by
      unfold excess
      omega
    rw [ofNat_of_ge hle h]
    refine (valueOf?_round_mul (e := 0) (show 2 ^ 52 ≤ n by omega) 53 (by omega)
      (by omega)).trans ?_
    rw [nearestNat, zero_add, zpow_natCast]
    push_cast
    rfl

end Conversion

theorem valueOf?_neg (u : UnpackedFloat) : valueOf? u.neg = (valueOf? u).map Neg.neg := by
  cases u with
  | infinity s => rfl
  | notANumber => rfl
  | zero s => exact congrArg some neg_zero.symm
  | finite s m e hm =>
    cases s with
    | positive => exact congrArg some (negative_value m e)
    | negative => exact congrArg some (neg_eq_iff_eq_neg.2 (negative_value m e)).symm

theorem value?_neg (x : Float) : value? (-x) = (value? x).map Neg.neg := by
  rw [value?, unpack_neg, valueOf?_neg]
  rfl

/-- The number of an integer's double. -/
theorem value?_ofInt {n : Int} (h : n.natAbs < 2 ^ 64) :
    value? (Float.ofInt n) = some (nearest n : ℚ) := by
  cases n with
  | ofNat n => exact value?_ofNat h
  | negSucc n =>
    have hneg := (value?_neg (Float.ofNat (n + 1))).trans (congrArg _ (value?_ofNat h))
    refine hneg.trans (congrArg some ?_)
    show -(nearestNat (n + 1) : ℚ) = ((-(nearestNat (n + 1) : Int) : Int) : ℚ)
    push_cast
    rfl

/-- The same for the integers of the language. -/
theorem value?_intToFloat (n : Int64) :
    value? (Script.intToFloat n) = some (nearest n.toInt : ℚ) := by
  have hrange := Script.toInt_range n
  unfold Script.InRange at hrange
  exact value?_ofInt (by omega)

end CalcDoc.Binary64
