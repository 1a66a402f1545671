import CalcDoc.Proofs.Evaluation.Roundings
import CalcDoc.Proofs.Numbers.Lengths
import CalcDoc.Proofs.Numerals

/-!
# Seventeen digits

There need not be a decimal of sixteen digits among the reals that round to a double, but there is
always one of seventeen. So the search for a shortest decimal ends with one of these reals before it
runs out of grids.

- `Interval.lower`, `Interval.middle`, `Interval.upper`: a double and the ends of its interval, as
  rational numbers.
- `exists_neighbour?`: a grid with a point in the interval has one next to the double.
- `search_of_contains`: the step and the run of the search over the grids.
- `ofMagnitude_contains`: the grid of seventeen digits has a point in every interval.
- `shortestDecimal_spec`: the shortest decimal lies in the interval, and has not fewer digits
  before the point than the double.
-/

namespace CalcDoc

open Binary64 (Magnitude Canonical)

/-- The number that a decimal stands for. -/
def Decimal.number (d : Decimal) : ℚ :=
  d.digits * 10 ^ d.exponent

namespace Shortest

namespace Interval

variable (i : Interval)

/-- The lower end. -/
def lower : ℚ :=
  i.low / i.denominator

/-- The double itself. -/
def middle : ℚ :=
  i.value / i.denominator

/-- The upper end. -/
def upper : ℚ :=
  i.high / i.denominator

/-- The double lies between the ends. -/
structure Proper : Prop where
  low : i.low < i.value
  high : i.value < i.high
  pos : 0 < i.denominator

variable {i} {n m : Nat} {k : Int} {tie : Tie}

/-- A closed interval also has its ends. -/
theorem contains_iff : i.contains n = true ↔
    (i.closed = true ∧ i.low ≤ n * i.denominator ∧ n * i.denominator ≤ i.high) ∨
      i.low < n * i.denominator ∧ n * i.denominator < i.high := by
  unfold contains
  dsimp only
  split
  · next hclosed =>
    rw [Bool.and_eq_true, decide_eq_true_eq, decide_eq_true_eq]
    exact ⟨fun h => .inl ⟨hclosed, h⟩, fun h => h.elim And.right (.imp Nat.le_of_lt Nat.le_of_lt)⟩
  · next hopen =>
    rw [Bool.and_eq_true, decide_eq_true_eq, decide_eq_true_eq]
    exact ⟨.inr, fun h => h.resolve_left fun h => hopen h.1⟩

theorem bounds_of_contains (hi : i.Proper) (h : i.contains n = true) :
    i.lower ≤ n ∧ n ≤ i.upper := by
  have hpos : (0 : ℚ) < i.denominator := Nat.cast_pos.2 hi.pos
  have hbounds : i.low ≤ n * i.denominator ∧ n * i.denominator ≤ i.high :=
    (contains_iff.1 h).elim And.right (.imp Nat.le_of_lt Nat.le_of_lt)
  exact ⟨(div_le_iff₀ hpos).2 (mod_cast hbounds.1), (le_div_iff₀ hpos).2 (mod_cast hbounds.2)⟩

theorem contains_of_bounds (hi : i.Proper) (hlow : i.lower < n) (hhigh : n < i.upper) :
    i.contains n = true := by
  have hpos : (0 : ℚ) < i.denominator := Nat.cast_pos.2 hi.pos
  have hlow' : i.low < n * i.denominator := mod_cast (div_lt_iff₀ hpos).1 hlow
  have hhigh' : n * i.denominator < i.high := mod_cast (lt_div_iff₀ hpos).1 hhigh
  exact contains_iff.2 (.inr ⟨hlow', hhigh'⟩)

/-- What lies between a point of the interval and the double lies in the interval. -/
theorem contains_of_le (hi : i.Proper) (h : i.contains n = true) (hnm : n ≤ m)
    (hm : m * i.denominator ≤ i.value) : i.contains m = true := by
  have hle := Nat.mul_le_mul_right i.denominator hnm
  have hhigh := hm.trans_lt hi.high
  refine contains_iff.2 ((contains_iff.1 h).imp ?_ ?_)
  · exact fun ⟨hclosed, hlow, _⟩ => ⟨hclosed, hlow.trans hle, hhigh.le⟩
  · exact fun ⟨hlow, _⟩ => ⟨hlow.trans_le hle, hhigh⟩

theorem contains_of_ge (hi : i.Proper) (h : i.contains n = true) (hmn : m ≤ n)
    (hm : i.value ≤ m * i.denominator) : i.contains m = true := by
  have hle := Nat.mul_le_mul_right i.denominator hmn
  have hlow := hi.low.trans_le hm
  refine contains_iff.2 ((contains_iff.1 h).imp ?_ ?_)
  · exact fun ⟨hclosed, _, hhigh⟩ => ⟨hclosed, hlow.le, hle.trans hhigh⟩
  · exact fun ⟨_, hhigh⟩ => ⟨hlow, hle.trans_lt hhigh⟩

/-! ## One grid -/

theorem nearest_cases (i : Interval) (tie : Tie) (q : Nat) :
    i.nearest tie q = q ∨ i.nearest tie q = q + 1 := by
  unfold nearest
  split
  · exact .inl rfl
  · exact .inr rfl
  · split
    · exact .inl rfl
    · exact .inr rfl

/-- A neighbour of the double is one of the two integers next to it and lies in the interval. -/
theorem of_neighbour? (h : i.neighbour? tie = some n) :
    i.contains n = true ∧ i.value / i.denominator ≤ n := by
  unfold neighbour? at h
  dsimp only at h
  split at h
  · cases h
  · next hq _ =>
    obtain rfl := Option.some.inj h
    exact ⟨hq, Nat.le_refl _⟩
  · next _ hq =>
    obtain rfl := Option.some.inj h
    exact ⟨hq, Nat.le_succ _⟩
  · next hq hq' =>
    obtain rfl := Option.some.inj h
    rcases nearest_cases i tie (i.value / i.denominator) with heq | heq
    · rw [heq]
      exact ⟨hq, Nat.le_refl _⟩
    · rw [heq]
      exact ⟨hq', Nat.le_succ _⟩

/-- A grid with a point in the interval has one next to the double. -/
theorem exists_neighbour? (hi : i.Proper) (h : i.contains n = true) (tie : Tie) :
    ∃ m, i.neighbour? tie = some m := by
  have hor : i.contains (i.value / i.denominator) = true ∨
      i.contains (i.value / i.denominator + 1) = true := by
    rcases Nat.lt_or_ge (i.value / i.denominator) n with hlt | hge
    · exact .inr (contains_of_ge hi h hlt (Nat.lt_mul_of_div_lt (Nat.lt_succ_self _) hi.pos).le)
    · exact .inl (contains_of_le hi h hge (Nat.div_mul_le_self _ _))
  unfold neighbour?
  dsimp only
  split
  · next hq hq' =>
    rw [hq, hq'] at hor
    simp at hor
  · exact ⟨_, rfl⟩
  · exact ⟨_, rfl⟩
  · exact ⟨_, rfl⟩

/-! ## Other units -/

theorem div_inUnits (a d : Nat) (k : Int) :
    ((a * Nat.pow 10 (-k).toNat : Nat) : ℚ) / ((d * Nat.pow 10 k.toNat : Nat) : ℚ) =
      a / d / 10 ^ k := by
  have hpow : ∀ n, ((Nat.pow 10 n : Nat) : ℚ) = 10 ^ n := fun n => Nat.cast_pow 10 n
  rw [Nat.cast_mul, Nat.cast_mul, hpow, hpow]
  rcases Int.le_total 0 k with hk | hk
  · obtain ⟨j, rfl⟩ := Int.eq_ofNat_of_zero_le hk
    rw [show (-(j : Int)).toNat = 0 by omega, Int.toNat_natCast, zpow_natCast, pow_zero, mul_one,
      div_div]
  · obtain ⟨j, hj⟩ := Int.eq_ofNat_of_zero_le (show 0 ≤ -k by omega)
    obtain rfl : k = -j := by omega
    rw [neg_neg, Int.toNat_natCast, show (-(j : Int)).toNat = 0 by omega, zpow_neg, zpow_natCast,
      pow_zero, mul_one, div_inv_eq_mul, mul_div_right_comm]

theorem lower_inUnits (i : Interval) (k : Int) : (i.inUnits k).lower = i.lower / 10 ^ k :=
  div_inUnits _ _ _

theorem middle_inUnits (i : Interval) (k : Int) : (i.inUnits k).middle = i.middle / 10 ^ k :=
  div_inUnits _ _ _

theorem upper_inUnits (i : Interval) (k : Int) : (i.inUnits k).upper = i.upper / 10 ^ k :=
  div_inUnits _ _ _

theorem Proper.inUnits (hi : i.Proper) (k : Int) : (i.inUnits k).Proper where
  low := Nat.mul_lt_mul_of_pos_right hi.low (Nat.pow_pos (by decide))
  high := Nat.mul_lt_mul_of_pos_right hi.high (Nat.pow_pos (by decide))
  pos := Nat.mul_pos hi.pos (Nat.pow_pos (by decide))

/-- A grid that is finer than the interval is wide has a point in it. -/
theorem exists_contains (hi : i.Proper) (h : 10 ^ k < i.upper - i.lower) :
    ∃ n, (i.inUnits k).contains n = true := by
  have hstep : (0 : ℚ) < 10 ^ k := zpow_pos (by norm_num) k
  have hlower : 0 ≤ i.lower / 10 ^ k :=
    div_nonneg (div_nonneg (Nat.cast_nonneg _) (Nat.cast_nonneg _)) hstep.le
  have hwide : i.lower / 10 ^ k + 1 < i.upper / 10 ^ k := by
    rw [lt_div_iff₀ hstep, add_mul, div_mul_cancel₀ _ hstep.ne', one_mul]
    linarith
  refine ⟨⌊i.lower / 10 ^ k⌋₊ + 1, contains_of_bounds (hi.inUnits k) ?_ ?_⟩
  · rw [lower_inUnits]
    exact mod_cast Nat.lt_floor_add_one _
  · rw [upper_inUnits]
    push_cast
    linarith [Nat.floor_le hlower]

end Interval

/-! ## The search -/

/-- The search ends at the first grid with a point in the interval, or before. -/
theorem search_of_contains {i : Interval} (hi : i.Proper) {k j : Int} {n more : Nat} (tie : Tie)
    (h : (i.inUnits j).contains n = true) (hle : j ≤ k) (hlt : k < j + more) :
    j ≤ (search i tie k more).exponent ∧
      (i.inUnits (search i tie k more).exponent).neighbour? tie =
        some (search i tie k more).digits := by
  -- on the number of grids that are left, which always reach down to the grid with the point
  induction more generalizing k with
  | zero => omega
  | succ more ih =>
    rw [search]
    split
    · next n hn => exact ⟨hle, hn⟩
    · next hnone =>
      have hne : j ≠ k := by
        rintro rfl
        obtain ⟨m, hm⟩ := Interval.exists_neighbour? (hi.inUnits j) h tie
        rw [hm] at hnone
        cases hnone
      exact ih (by omega) (by omega)

/-! ## The interval of a double -/

section OfMagnitude

variable {v : Magnitude}

theorem div_quarters (a : Nat) (e : Int) :
    ((a * 1 <<< (e - 2).toNat : Nat) : ℚ) / ((1 <<< (2 - e).toNat : Nat) : ℚ) = a / 4 * 2 ^ e := by
  rw [Nat.one_shiftLeft, Nat.one_shiftLeft]
  push_cast
  rcases Int.le_total 2 e with he | he
  · obtain ⟨j, hj⟩ := Int.eq_ofNat_of_zero_le (show 0 ≤ e - 2 by omega)
    rw [show (2 - e).toNat = 0 by omega, show e = j + 2 by omega, zpow_add₀ two_ne_zero,
      zpow_natCast, show ((j + 2 : Int) - 2).toNat = j by omega]
    norm_num
    ring
  · obtain ⟨j, hj⟩ := Int.eq_ofNat_of_zero_le (show 0 ≤ 2 - e by omega)
    rw [show (e - 2).toNat = 0 by omega, hj, Int.toNat_natCast, show e = 2 - j by omega,
      zpow_sub₀ two_ne_zero, zpow_natCast]
    norm_num
    ring

theorem middle_ofMagnitude (v : Magnitude) : (Interval.ofMagnitude v).middle = v.size := by
  refine (div_quarters (4 * v.mantissa) v.exponent).trans ?_
  rw [Magnitude.size]
  push_cast
  ring

theorem upper_ofMagnitude (v : Magnitude) :
    (Interval.ofMagnitude v).upper = (v.mantissa + 1 / 2) * 2 ^ v.exponent := by
  refine (div_quarters (4 * v.mantissa + 2) v.exponent).trans ?_
  push_cast
  ring

/-- Below a power of two the interval is half as wide. -/
theorem lower_ofMagnitude (hv : 0 < v.mantissa) :
    (Interval.ofMagnitude v).lower = (v.mantissa - 1 / 2) * 2 ^ v.exponent ∨
      v.mantissa = 2 ^ 52 ∧
        (Interval.ofMagnitude v).lower = (v.mantissa - 1 / 4) * 2 ^ v.exponent := by
  have hlower : ∀ below ≤ 4 * v.mantissa,
      (((4 * v.mantissa - below) * 1 <<< (v.exponent - 2).toNat : Nat) : ℚ) /
        ((1 <<< (2 - v.exponent).toNat : Nat) : ℚ) =
      (v.mantissa - below / 4) * 2 ^ v.exponent := by
    intro below hbelow
    rw [div_quarters, Nat.cast_sub hbelow]
    push_cast
    ring
  by_cases hpower : v.mantissa = 0x10000000000000 ∧ -1074 < v.exponent
  · refine .inr ⟨hpower.1, ?_⟩
    have := hlower 1 (by omega)
    simpa [Interval.lower, Interval.ofMagnitude, hpower] using this
  · refine .inl ?_
    have := hlower 2 (by omega)
    rw [Interval.lower, Interval.ofMagnitude]
    dsimp only
    rw [if_neg hpower, this]
    norm_num

theorem proper_ofMagnitude (hv : 0 < v.mantissa) : (Interval.ofMagnitude v).Proper where
  low := by
    refine Nat.mul_lt_mul_of_pos_right ?_ (by rw [Nat.one_shiftLeft]; exact Nat.two_pow_pos _)
    split <;> omega
  high := by
    refine Nat.mul_lt_mul_of_pos_right ?_ (by rw [Nat.one_shiftLeft]; exact Nat.two_pow_pos _)
    omega
  pos := by
    show 0 < 1 <<< (2 - v.exponent).toNat
    rw [Nat.one_shiftLeft]
    exact Nat.two_pow_pos _

end OfMagnitude

/-! ## Seventeen digits -/

/-- The digits of a quotient that is cut off after some places say between which powers of ten it
lies. -/
theorem length_toDigits_quotient {a b s : Nat} (hb : 0 < b) (h : b ≤ a * Nat.pow 10 s) {l : Nat}
    (hl : (Nat.toDigits 10 (a * Nat.pow 10 s / b)).length = l) :
    (10 : ℚ) ^ ((l : Int) - s - 1) ≤ a / b ∧ (a / b : ℚ) < 10 ^ ((l : Int) - s) := by
  have hpos : (0 : ℚ) < b := Nat.cast_pos.2 hb
  have hten : (10 : ℚ) ≠ 0 := by norm_num
  have hscale : (0 : ℚ) < 10 ^ s := pow_pos (by norm_num) s
  generalize hn : a * Nat.pow 10 s / b = n at hl
  have hquotient : (a / b : ℚ) * 10 ^ s = ((a * Nat.pow 10 s : Nat) : ℚ) / b := by
    rw [Nat.cast_mul, show ((Nat.pow 10 s : Nat) : ℚ) = 10 ^ s from Nat.cast_pow 10 s,
      div_mul_eq_mul_div]
  have hfloor : (n : ℚ) ≤ a / b * 10 ^ s := by
    rw [hquotient, ← hn]
    exact Nat.cast_div_le
  have hceil : (a / b * 10 ^ s : ℚ) < n + 1 := by
    rw [hquotient, div_lt_iff₀ hpos, ← hn]
    exact mod_cast Nat.lt_mul_of_div_lt (Nat.lt_succ_self _) hb
  obtain ⟨hlow, hhigh⟩ := length_toDigits_spec (hn ▸ Nat.div_pos h hb : 0 < n)
  have hlength : 0 < l := hl ▸ List.length_pos_iff.2 Nat.toDigits_ne_nil
  rw [hl] at hlow hhigh
  constructor
  · rw [show (l : Int) - s - 1 = ((l - 1 : Nat) : Int) - s by omega, zpow_sub₀ hten, zpow_natCast,
      zpow_natCast, div_le_iff₀ hscale]
    exact le_trans (mod_cast hlow) hfloor
  · rw [zpow_sub₀ hten, zpow_natCast, zpow_natCast, lt_div_iff₀ hscale]
    exact hceil.trans_le (mod_cast hhigh)

/-- What is found lies in the interval, has at most seventeen digits, and does not fall below a
power of ten that the double does not fall below. -/
theorem search_spec {i : Interval} (hi : i.Proper) {p : Int} {n : Nat}
    (hlow : 10 ^ (p - 1) ≤ i.middle) (hn : (i.inUnits (p - 17)).contains n = true) (tie : Tie) :
    p - 17 ≤ (search i tie (p - 1) 17).exponent ∧
      10 ^ (p - 1) ≤ (search i tie (p - 1) 17).number ∧
      i.lower ≤ (search i tie (p - 1) 17).number ∧ (search i tie (p - 1) 17).number ≤ i.upper := by
  obtain ⟨hexponent, hneighbour⟩ : p - 17 ≤ (search i tie (p - 1) 17).exponent ∧ _ :=
    search_of_contains hi tie hn (by omega) (by omega)
  have hhigh := (exponent_search i tie (p - 1) 17).2
  generalize search i tie (p - 1) 17 = d at hexponent hneighbour hhigh ⊢
  have hstep : (0 : ℚ) < 10 ^ d.exponent := zpow_pos (by norm_num) _
  obtain ⟨hcontains, hfloor⟩ := Interval.of_neighbour? hneighbour
  obtain ⟨hlower, hupper⟩ := Interval.bounds_of_contains (hi.inUnits _) hcontains
  rw [Interval.lower_inUnits, div_le_iff₀ hstep] at hlower
  rw [Interval.upper_inUnits, le_div_iff₀ hstep] at hupper
  obtain ⟨t, ht⟩ := Int.eq_ofNat_of_zero_le (show 0 ≤ p - 1 - d.exponent by omega)
  -- the power of ten is on the grid, so the neighbours of the double do not fall below it
  have hdigits : 10 ^ t ≤ d.digits := by
    refine le_trans ?_ hfloor
    have hpos : (0 : ℚ) < (i.inUnits d.exponent).denominator := Nat.cast_pos.2 (hi.inUnits _).pos
    have hmiddle : (10 : ℚ) ^ t ≤ (i.inUnits d.exponent).middle := by
      rw [Interval.middle_inUnits, le_div_iff₀ hstep, ← zpow_natCast, ← ht,
        ← zpow_add₀ (by norm_num), sub_add_cancel]
      exact hlow
    rw [Interval.middle, le_div_iff₀ hpos] at hmiddle
    exact (Nat.le_div_iff_mul_le (hi.inUnits _).pos).2 (mod_cast hmiddle)
  refine ⟨hexponent, ?_, hlower, hupper⟩
  rw [Decimal.number, show p - 1 = (t : Int) + d.exponent by omega, zpow_add₀ (by norm_num),
    zpow_natCast]
  exact mul_le_mul_of_nonneg_right (mod_cast hdigits) hstep.le

section Canonical

variable {v : Magnitude} (hv : 0 < v.mantissa) (hcanonical : Canonical v.mantissa v.exponent)

include hv hcanonical

/-- The digits of a double that is cut off after enough places. -/
theorem length_toDigits_ofMagnitude {s l : Nat} (hs : 1076 ≤ 3 * s)
    (hl : (Nat.toDigits 10 ((Interval.ofMagnitude v).value * Nat.pow 10 s /
      (Interval.ofMagnitude v).denominator)).length = l) :
    10 ^ ((l : Int) - s - 1) ≤ v.size ∧ v.size < 10 ^ ((l : Int) - s) := by
  have hlow := hcanonical.low
  have hle : (Interval.ofMagnitude v).denominator ≤
      (Interval.ofMagnitude v).value * Nat.pow 10 s :=
    calc 1 <<< (2 - v.exponent).toNat
      _ = 2 ^ (2 - v.exponent).toNat := Nat.one_shiftLeft _
      _ ≤ 2 ^ (3 * s) := Nat.pow_le_pow_right (by decide) (by omega)
      _ = (2 ^ 3) ^ s := Nat.pow_mul 2 3 s
      _ ≤ Nat.pow 10 s := Nat.pow_le_pow_left (by decide) s
      _ ≤ 4 * v.mantissa * 1 <<< (v.exponent - 2).toNat * Nat.pow 10 s := by
        refine Nat.le_mul_of_pos_left _ ?_
        rw [Nat.one_shiftLeft]
        exact Nat.mul_pos (by omega) (Nat.two_pow_pos _)
  rw [← middle_ofMagnitude]
  exact length_toDigits_quotient (proper_ofMagnitude hv).pos hle hl

/-- The point position says between which powers of ten the double lies. -/
theorem pointPosition_spec :
    10 ^ ((Interval.ofMagnitude v).pointPosition - 1) ≤ v.size ∧
      v.size < 10 ^ (Interval.ofMagnitude v).pointPosition := by
  have henough : 1076 ≤ 3 * 400 := by decide
  rw [Interval.pointPosition, show (400 : Int) = ((400 : Nat) : Int) from rfl]
  generalize 400 = s at henough ⊢
  exact length_toDigits_ofMagnitude hv hcanonical henough rfl

/-- The interval is wider than the seventeenth digit. -/
theorem ofMagnitude_contains : ∃ n, ((Interval.ofMagnitude v).inUnits
    ((Interval.ofMagnitude v).pointPosition - 17)).contains n = true := by
  refine Interval.exists_contains (proper_ofMagnitude hv) ?_
  have hunit : (0 : ℚ) < 2 ^ v.exponent := zpow_pos two_pos _
  have hmantissa : (v.mantissa : ℚ) + 1 ≤ 2 ^ 53 := mod_cast hcanonical.lt
  -- the step of the grid is at most a part in ten to the sixteenth of the double
  have hstep : (10 : ℚ) ^ ((Interval.ofMagnitude v).pointPosition - 17) * 10 ^ 16 ≤
      v.mantissa * 2 ^ v.exponent := by
    refine le_trans (le_of_eq ?_) (pointPosition_spec hv hcanonical).1
    rw [← zpow_natCast, ← zpow_add₀ (by norm_num)]
    congr 1
    omega
  rw [upper_ofMagnitude]
  rcases lower_ofMagnitude hv with hlower | ⟨hpower, hlower⟩
  · rw [hlower]
    nlinarith
  · -- three quarters of a unit are still more, since the mantissa is least
    rw [hlower]
    have : (v.mantissa : ℚ) = 2 ^ 52 := mod_cast hpower
    rw [this] at hstep ⊢
    linarith

end Canonical

end Shortest

/-- The shortest decimal of a double lies in the interval of the reals that round to it. -/
theorem shortestDecimal_spec {v : Magnitude} (hv : 0 < v.mantissa)
    (hcanonical : Canonical v.mantissa v.exponent) (tie : Tie) :
    ∃ p : Int, (10 ^ (p - 1) ≤ v.size ∧ v.size < 10 ^ p) ∧
      p - 17 ≤ (shortestDecimal tie v).exponent ∧ 10 ^ (p - 1) ≤ (shortestDecimal tie v).number ∧
      (Shortest.Interval.ofMagnitude v).lower ≤ (shortestDecimal tie v).number ∧
      (shortestDecimal tie v).number ≤ (Shortest.Interval.ofMagnitude v).upper := by
  have hposition := Shortest.pointPosition_spec hv hcanonical
  obtain ⟨n, hn⟩ := Shortest.ofMagnitude_contains hv hcanonical
  refine ⟨_, hposition, ?_⟩
  rw [shortestDecimal, if_neg (Nat.ne_of_gt hv)]
  refine Shortest.search_spec (Shortest.proper_ofMagnitude hv) ?_ hn tie
  rw [Shortest.middle_ofMagnitude]
  exact hposition.1

end CalcDoc
