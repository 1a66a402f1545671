import CalcDoc.Proofs.Numbers.Values

/-!
# The double nearest to an integer

A double has room for 53 bits. An integer with more of them is rounded to the nearest one with as
many, and if it lies in the middle of two, to the even one. So the order of integers is kept, though
not strictly, and just the integers with at most 53 significant bits have a double of their own.

- `halfEven`: division by a power of two, rounded to the nearest and halves to the even.
- `nearest`: the number with 53 significant bits that is nearest to an integer.
- `nearest_mono`: the order is kept.
- `nearest_eq_iff`: the integers that are kept.
-/

namespace CalcDoc.Binary64

/-! ## Rounding -/

/-- The quotient `n / 2 ^ k`, rounded to the nearest integer, and halves to the even one. -/
def halfEven (n k : Nat) : Nat :=
  match compare (2 * (n % 2 ^ k)) (2 ^ k) with
  | .lt => n / 2 ^ k
  | .eq => n / 2 ^ k + n / 2 ^ k % 2
  | .gt => n / 2 ^ k + 1

/-- How many bits of a number are too many for a double. -/
def excess (n : Nat) : Nat :=
  n.log2 - 52

/-- The number with at most 53 significant bits that is nearest to `n`. -/
def nearestNat (n : Nat) : Nat :=
  halfEven n (excess n) * 2 ^ excess n

/-- The same for integers, with their signs. -/
def nearest : Int → Int
  | .ofNat n => nearestNat n
  | .negSucc n => -nearestNat (n + 1)

section HalfEven

variable {n n' k : Nat}

theorem halfEven_cases (n k : Nat) :
    2 * (n % 2 ^ k) < 2 ^ k ∧ halfEven n k = n / 2 ^ k ∨
    2 * (n % 2 ^ k) = 2 ^ k ∧ halfEven n k = n / 2 ^ k + n / 2 ^ k % 2 ∨
    2 ^ k < 2 * (n % 2 ^ k) ∧ halfEven n k = n / 2 ^ k + 1 := by
  unfold halfEven
  split
  · next h => exact .inl ⟨compare_lt_iff_lt.1 h, rfl⟩
  · next h => exact .inr (.inl ⟨compare_eq_iff_eq.1 h, rfl⟩)
  · next h => exact .inr (.inr ⟨compare_gt_iff_gt.1 h, rfl⟩)

theorem halfEven_bounds (n k : Nat) : n / 2 ^ k ≤ halfEven n k ∧ halfEven n k ≤ n / 2 ^ k + 1 := by
  rcases halfEven_cases n k with ⟨-, h⟩ | ⟨-, h⟩ | ⟨-, h⟩ <;> omega

/-- A quotient that is an integer is kept. -/
theorem halfEven_of_mod (h : n % 2 ^ k = 0) : halfEven n k = n / 2 ^ k := by
  have hpos := Nat.two_pow_pos k
  rcases halfEven_cases n k with ⟨-, h'⟩ | ⟨hmod, -⟩ | ⟨hmod, -⟩ <;> omega

theorem halfEven_mono (h : n ≤ n') : halfEven n k ≤ halfEven n' k := by
  have hdiv : n / 2 ^ k ≤ n' / 2 ^ k := Nat.div_le_div_right h
  rcases hdiv.lt_or_eq with hlt | heq
  · have hle := (halfEven_bounds n k).2
    have hle' := (halfEven_bounds n' k).1
    omega
  · -- the quotients are one, so the remainders decide
    have hmod : n % 2 ^ k ≤ n' % 2 ^ k := by
      have hn := Nat.div_add_mod n (2 ^ k)
      have hn' := Nat.div_add_mod n' (2 ^ k)
      rw [← heq] at hn'
      omega
    rcases halfEven_cases n k with ⟨hc, h⟩ | ⟨hc, h⟩ | ⟨hc, h⟩ <;>
      rcases halfEven_cases n' k with ⟨hc', h'⟩ | ⟨hc', h'⟩ | ⟨hc', h'⟩ <;> omega

theorem compare_mul_right {a b c : Nat} (hc : 0 < c) : compare (a * c) (b * c) = compare a b :=
  (eq_compare (fun h => Nat.mul_lt_mul_of_pos_right (compare_lt_iff_lt.1 h) hc)
    (fun h => congrArg (· * c) (compare_eq_iff_eq.1 h))
    fun h => Nat.mul_lt_mul_of_pos_right (compare_gt_iff_gt.1 h) hc).symm

/-- Both parts of a quotient may be multiplied with one power of two. -/
theorem halfEven_mul (n k j : Nat) : halfEven (n * 2 ^ j) (k + j) = halfEven n k := by
  have hpos := Nat.two_pow_pos j
  unfold halfEven
  rw [Nat.pow_add, Nat.mul_div_mul_right _ _ hpos, Nat.mul_mod_mul_right, ← Nat.mul_assoc,
    compare_mul_right hpos]

end HalfEven

/-! ## The nearest number of 53 significant bits -/

section Nearest

variable {m n n' : Nat}

theorem excess_of_lt (h : n < 2 ^ 53) : excess n = 0 := by
  by_cases hn : n = 0
  · subst hn
    rfl
  · have hlog : n.log2 < 53 := (Nat.log2_lt hn).2 h
    exact Nat.sub_eq_zero_of_le (Nat.le_of_lt_succ hlog)

theorem lt_pow_excess (n : Nat) : n < 2 ^ (53 + excess n) := by
  refine (Nat.lt_log2_self (n := n)).trans_le (Nat.pow_le_pow_right two_pos ?_)
  unfold excess
  omega

theorem pow_excess_le (h : 2 ^ 52 ≤ n) : 2 ^ 52 * 2 ^ excess n ≤ n := by
  have hn : n ≠ 0 := by rintro rfl; omega
  have hlog : 52 ≤ n.log2 := (Nat.le_log2 hn).2 h
  rw [← Nat.pow_add, show 52 + excess n = n.log2 by unfold excess; omega]
  exact Nat.log2_self_le hn

theorem excess_mono (h : n ≤ n') : excess n ≤ excess n' := by
  have hlog : n.log2 ≤ n'.log2 := by
    rw [Nat.log2_eq_log_two, Nat.log2_eq_log_two]
    exact Nat.log_mono_right h
  exact Nat.sub_le_sub_right hlog 52

theorem le_of_excess_pos (h : 0 < excess n) : 2 ^ 52 ≤ n := by
  have hlog : 52 ≤ n.log2 := by unfold excess at h; omega
  have hn : n ≠ 0 := by
    rintro rfl
    exact absurd h (by decide)
  exact (Nat.le_log2 hn).1 hlog

/-- Rounding makes at most one bit more. -/
theorem halfEven_le (n : Nat) : halfEven n (excess n) ≤ 2 ^ 53 := by
  have hlt : n / 2 ^ excess n < 2 ^ 53 := by
    rw [Nat.div_lt_iff_lt_mul (Nat.two_pow_pos _), ← Nat.pow_add]
    exact lt_pow_excess n
  have hle := (halfEven_bounds n (excess n)).2
  omega

theorem le_halfEven (h : 2 ^ 52 ≤ n) : 2 ^ 52 ≤ halfEven n (excess n) :=
  ((Nat.le_div_iff_mul_le (Nat.two_pow_pos _)).2 (pow_excess_le h)).trans
    (halfEven_bounds n (excess n)).1

theorem nearestNat_mono (h : n ≤ n') : nearestNat n ≤ nearestNat n' := by
  unfold nearestNat
  rcases (excess_mono h).lt_or_eq with hlt | heq
  · -- a power of two lies between
    calc halfEven n (excess n) * 2 ^ excess n
        ≤ 2 ^ 53 * 2 ^ excess n := Nat.mul_le_mul_right _ (halfEven_le n)
      _ = 2 ^ 52 * 2 ^ (excess n + 1) := by rw [Nat.pow_succ 2 (excess n)]; omega
      _ ≤ 2 ^ 52 * 2 ^ excess n' := Nat.mul_le_mul_left _ (Nat.pow_le_pow_right two_pos hlt)
      _ ≤ halfEven n' (excess n') * 2 ^ excess n' :=
          Nat.mul_le_mul_right _ (le_halfEven (le_of_excess_pos (by omega)))
  · rw [← heq]
    exact Nat.mul_le_mul_right _ (halfEven_mono h)

/-- The numbers with at most 53 significant bits are kept, and no others. -/
theorem nearestNat_eq_iff : nearestNat n = n ↔ ∃ m k, n = m * 2 ^ k ∧ m < 2 ^ 53 := by
  constructor
  · intro h
    refine ⟨halfEven n (excess n), excess n, h.symm, ?_⟩
    have hlt := lt_pow_excess n
    rw [Nat.pow_add] at hlt
    exact Nat.lt_of_mul_lt_mul_right (h.trans_lt hlt)
  · rintro ⟨m, k, hn, hm⟩
    have hexcess : excess n ≤ k := by
      have hlt : n < 2 ^ (53 + k) := by
        rw [hn, Nat.pow_add]
        exact Nat.mul_lt_mul_of_pos_right hm (Nat.two_pow_pos k)
      by_cases hzero : n = 0
      · rw [hzero]
        exact Nat.zero_le k
      · have hlog : n.log2 < 53 + k := (Nat.log2_lt hzero).2 hlt
        unfold excess
        omega
    have hdvd : 2 ^ excess n ∣ n :=
      ((Nat.pow_dvd_pow 2 hexcess).trans (Nat.dvd_mul_left _ m)).trans (dvd_of_eq hn.symm)
    rw [nearestNat, halfEven_of_mod (Nat.mod_eq_zero_of_dvd hdvd), Nat.div_mul_cancel hdvd]

theorem nearestNat_of_lt (h : n < 2 ^ 53) : nearestNat n = n :=
  nearestNat_eq_iff.2 ⟨n, 0, (Nat.mul_one n).symm, h⟩

/-- The order of integers is kept. -/
theorem nearest_mono {a b : Int} (h : a ≤ b) : nearest a ≤ nearest b := by
  cases a with
  | ofNat m =>
    cases b with
    | ofNat n => exact Int.ofNat_le.2 (nearestNat_mono (Int.ofNat_le.1 h))
    | negSucc n =>
      have hneg : Int.ofNat m < 0 := h.trans_lt (Int.negSucc_lt_zero n)
      exact absurd hneg (Int.not_lt.2 (Int.natCast_nonneg m))
  | negSucc m =>
    cases b with
    | ofNat n =>
      show -(nearestNat (m + 1) : Int) ≤ nearestNat n
      omega
    | negSucc n =>
      have hle : nearestNat (n + 1) ≤ nearestNat (m + 1) := nearestNat_mono (by omega)
      show -(nearestNat (m + 1) : Int) ≤ -nearestNat (n + 1)
      omega

theorem nearest_eq_self_iff {a : Int} : nearest a = a ↔ nearestNat a.natAbs = a.natAbs := by
  cases a with
  | ofNat n => exact Int.ofNat_inj
  | negSucc n =>
    show -(nearestNat (n + 1) : Int) = -(n + 1 : Nat) ↔ _
    rw [Int.neg_inj]
    exact Int.ofNat_inj

/-- The integers with at most 53 significant bits are kept, and no others. -/
theorem nearest_eq_iff {a : Int} :
    nearest a = a ↔ ∃ (m : Int) (k : Nat), a = m * 2 ^ k ∧ m.natAbs < 2 ^ 53 := by
  rw [nearest_eq_self_iff, nearestNat_eq_iff]
  constructor
  · rintro ⟨m, k, ha, hm⟩
    refine ⟨a.sign * m, k, ?_, ?_⟩
    · calc a = a.sign * a.natAbs := (Int.sign_mul_natAbs a).symm
        _ = a.sign * m * 2 ^ k := by rw [ha]; push_cast; ring
    · have hsign : a.sign.natAbs ≤ 1 := by
        rw [Int.natAbs_sign]
        split <;> decide
      rw [Int.natAbs_mul]
      exact (Nat.mul_le_mul_right _ hsign).trans_lt (by rwa [Nat.one_mul])
  · rintro ⟨m, k, rfl, hm⟩
    refine ⟨m.natAbs, k, ?_, hm⟩
    rw [Int.natAbs_mul, Int.natAbs_pow]
    rfl

end Nearest

end CalcDoc.Binary64
