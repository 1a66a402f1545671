import CalcDoc.Proofs.Numbers.Ranges
import CalcDoc.Proofs.Numbers.Shortest
import CalcDoc.Proofs.Numerals

/-!
# Doubles that are written like integers

An integral double below ten to the sixteenth has a zero behind a point, and all others have only
the digits of their shortest decimal. So the texts of great doubles are those of integers, and some
of these integers are integers of the language.

- `writePositional_of_le`, `dot_mem_writePositional`: the text of a decimal with no places, and one
  with a point.
- `dot_mem_floatText`, `exists_whole`: the texts of doubles below and above the threshold.
- `Shortest.upper_lt_range`, `Shortest.range_lt_lower`: the decimals of doubles within the range of
  the integers of the language, and beyond it.
- `Value.text_float_ne_text_int_iff`: the doubles that no integer is written like.
-/

namespace CalcDoc

open Binary64 (Magnitude Canonical)

/-! ## Decimals -/

namespace Decimal

variable {d : Decimal} {n p : Nat}

theorem number_strip (d : Decimal) : d.strip.number = d.number := by
  fun_induction Decimal.strip d with
  | case1 d hd ih =>
    have hdiv : d.digits / 10 * 10 = d.digits := Nat.div_mul_cancel (Nat.dvd_of_mod_eq_zero hd.2)
    rw [ih, number, number, zpow_add₀ (by norm_num), zpow_one]
    dsimp only
    rw [mul_comm ((10 : ℚ) ^ d.exponent) 10, ← mul_assoc]
    congr 1
    exact mod_cast hdiv
  | case2 d _ => rfl

theorem exponent_le_strip (d : Decimal) : d.exponent ≤ d.strip.exponent :=
  (strip_bounds (Nat.lt_pow_self (by decide) : d.digits < 10 ^ d.digits)).2.1

theorem digits_pos (h : 0 < d.number) : 0 < d.digits := by
  refine Nat.pos_of_ne_zero fun hzero => ?_
  rw [number, hzero, Nat.cast_zero, zero_mul] at h
  exact lt_irrefl _ h

/-- The digits and zeros of a decimal without places are those of its number. -/
theorem exists_digits (h : 0 < d.number) (he : 0 ≤ d.exponent) : ∃ n : Nat, d.number = n ∧
    Nat.toDigits 10 d.digits ++ List.replicate d.exponent.toNat '0' = Nat.toDigits 10 n := by
  obtain ⟨k, hk⟩ := Int.eq_ofNat_of_zero_le he
  refine ⟨d.digits * 10 ^ k, ?_, ?_⟩
  · rw [number, hk, zpow_natCast]
    push_cast
    rfl
  · rw [hk, Int.toNat_natCast, toDigits_mul_pow (digits_pos h)]

/-- A decimal without places that has enough digits is written like an integer. -/
theorem writePositional_of_le (he : 0 ≤ d.exponent) (hn : d.number = n) (hle : 10 ^ p ≤ n) :
    d.writePositional p = toString n := by
  have hpos : 0 < n := (Nat.pow_pos (by decide)).trans_le hle
  obtain ⟨m, hm, hdigits⟩ := exists_digits (hn ▸ Nat.cast_pos.2 hpos : 0 < d.number) he
  obtain rfl : m = n := by exact_mod_cast hm.symm.trans hn
  have hlong : ¬((Nat.toDigits 10 m).length : Int) ≤ p := by
    intro hshort
    have hlt := (length_toDigits_spec hpos).2
    have := Nat.pow_le_pow_right (n := 10) (by decide) (Int.ofNat_le.1 hshort)
    omega
  unfold writePositional
  dsimp only
  rw [if_pos he, hdigits, if_neg hlong, ← toList_toString_nat, String.ofList_toList]

/-- Any other decimal has a point. -/
theorem dot_mem_writePositional (hpos : 0 < d.number) (hlt : d.number < 10 ^ p) :
    '.' ∈ (d.writePositional p).toList := by
  unfold writePositional
  dsimp only
  split
  · next he =>
    obtain ⟨n, hn, hdigits⟩ := exists_digits hpos he
    rw [hn] at hpos hlt
    have hn' : n < 10 ^ p := mod_cast hlt
    have hshort : ((Nat.toDigits 10 n).length : Int) ≤ p := by
      have hp : 0 < p := Nat.pos_of_ne_zero fun hzero => by
        rw [hzero] at hn'
        have : 0 < n := Nat.cast_pos.1 hpos
        omega
      exact Int.ofNat_le.2 ((Nat.length_toDigits_le_iff (by decide) hp).2 hn')
    rw [hdigits, if_pos hshort]
    simp
  · split <;> simp

end Decimal

/-! ## Doubles -/

theorem canonical_of_magnitude? {x : Float} {v : Magnitude} (h : Binary64.magnitude? x = some v)
    (hv : 0 < v.mantissa) : Canonical v.mantissa v.exponent := by
  unfold Binary64.magnitude? at h
  split at h
  · obtain rfl := Option.some.inj h
    exact absurd hv (lt_irrefl 0)
  · obtain rfl := Option.some.inj h
    exact absurd hv (lt_irrefl 0)
  · next hx =>
    obtain rfl := Option.some.inj h
    exact Binary64.canonical_of_unpack hx
  · next hx =>
    obtain rfl := Option.some.inj h
    exact Binary64.canonical_of_unpack hx
  · cases h
  · cases h

namespace Shortest

variable {v : Magnitude} (hcanonical : Canonical v.mantissa v.exponent)

include hcanonical

theorem upper_le {k : Int} (hk : v.exponent ≤ k) :
    (Interval.ofMagnitude v).upper ≤ (2 ^ 53 - 1 / 2) * 2 ^ k := by
  have hmantissa : (v.mantissa : ℚ) + 1 ≤ 2 ^ 53 := mod_cast hcanonical.lt
  rw [upper_ofMagnitude]
  exact mul_le_mul (by linarith) (zpow_le_zpow_right₀ one_le_two hk) (zpow_pos two_pos _).le
    (by norm_num)

theorem size_lt {k : Int} (hk : v.exponent ≤ k) : v.size < 2 ^ 53 * 2 ^ k := by
  have hmantissa : (v.mantissa : ℚ) < 2 ^ 53 := mod_cast hcanonical.lt
  exact mul_lt_mul hmantissa (zpow_le_zpow_right₀ one_le_two hk) (zpow_pos two_pos _) (by norm_num)

/-- A great double has all bits of its mantissa. -/
theorem le_mantissa (he : 0 < v.exponent) : (2 : ℚ) ^ 52 ≤ v.mantissa := by
  have := hcanonical.full.resolve_right (by omega)
  exact mod_cast this

theorem le_size {k : Int} (hk : k ≤ v.exponent) (he : 0 < v.exponent) :
    2 ^ 52 * 2 ^ k ≤ v.size :=
  mul_le_mul (le_mantissa hcanonical he) (zpow_le_zpow_right₀ one_le_two hk)
    (zpow_pos two_pos _).le (Nat.cast_nonneg _)

omit hcanonical in
theorem half_below_le_lower (hv : 0 < v.mantissa) :
    (v.mantissa - 1 / 2) * 2 ^ v.exponent ≤ (Interval.ofMagnitude v).lower := by
  rcases lower_ofMagnitude hv with hlower | ⟨-, hlower⟩
  · exact hlower.ge
  · rw [hlower]
    exact mul_le_mul_of_nonneg_right (by linarith) (zpow_pos two_pos _).le

/-- What rounds to a double below the threshold lies below it. -/
theorem upper_lt_threshold (h : v.size < 10 ^ 16) :
    (Interval.ofMagnitude v).upper < 10 ^ 16 := by
  rcases Int.lt_or_le 0 v.exponent with hpos | hneg
  · have hone : v.exponent = 1 := by
      refine Int.le_antisymm (Int.le_of_not_gt fun htwo => ?_) hpos
      have := le_size hcanonical (k := 2) htwo hpos
      norm_num at this h
      linarith
    -- an integral double is even here, and so is the threshold
    rw [Magnitude.size, hone, zpow_one] at h
    have hmantissa : v.mantissa + 1 ≤ 5 * 10 ^ 15 := by
      have : v.mantissa * 2 < 10 ^ 16 := mod_cast h
      omega
    have : (v.mantissa : ℚ) + 1 ≤ 5 * 10 ^ 15 := mod_cast hmantissa
    rw [upper_ofMagnitude, hone, zpow_one]
    linarith
  · refine (upper_le hcanonical hneg).trans_lt ?_
    norm_num

/-- What rounds to a double in the range of the integers lies in this range. -/
theorem upper_lt_range (h : v.size < 2 ^ 63) : (Interval.ofMagnitude v).upper < 2 ^ 63 := by
  rcases Int.lt_or_le 10 v.exponent with hgreat | hsmall
  · have := le_size hcanonical (k := 11) hgreat (by omega)
    norm_num at this h
    linarith
  · refine (upper_le hcanonical hsmall).trans_lt ?_
    norm_num

/-- What rounds to a double beyond the range lies beyond it, but for the first one of them. -/
theorem range_lt_lower (hv : 0 < v.mantissa) (h : 2 ^ 63 ≤ v.size) :
    v.mantissa = 2 ^ 52 ∧ v.exponent = 11 ∨ 2 ^ 63 < (Interval.ofMagnitude v).lower := by
  have hgreat : 10 < v.exponent := by
    refine Int.lt_of_not_ge fun hsmall => ?_
    have := size_lt hcanonical hsmall
    norm_num at this h
    linarith
  have hfull := le_mantissa hcanonical (by omega)
  have hlower := half_below_le_lower hv
  rcases Int.lt_or_eq_of_le (show 11 ≤ v.exponent by omega) with hmore | heleven
  · -- from two to the sixty-fourth on
    have hunit : (2 : ℚ) ^ (12 : Int) ≤ 2 ^ v.exponent := zpow_le_zpow_right₀ one_le_two hmore
    refine .inr (lt_of_lt_of_le ?_ hlower)
    calc (2 : ℚ) ^ 63 < ((2 : ℚ) ^ 52 - 1 / 2) * (2 : ℚ) ^ (12 : Int) := by norm_num
      _ ≤ ((v.mantissa : ℚ) - 1 / 2) * (2 : ℚ) ^ v.exponent :=
        mul_le_mul (by linarith) hunit (by norm_num) (by linarith)
  · rcases Nat.eq_or_lt_of_le (show 2 ^ 52 ≤ v.mantissa by exact_mod_cast hfull) with heq | hlt
    · exact .inl ⟨heq.symm, heleven.symm⟩
    · have hmantissa : (2 : ℚ) ^ 52 + 1 ≤ v.mantissa := mod_cast hlt
      refine .inr (lt_of_lt_of_le ?_ hlower)
      rw [← heleven]
      norm_num
      linarith

end Shortest

/-- The first double beyond the range of the integers is written like a greater one. -/
theorem number_first {v : Magnitude} (hmantissa : v.mantissa = 2 ^ 52)
    (hexponent : v.exponent = 11) :
    (shortestDecimal .up v).number = 9223372036854776000 := by
  obtain ⟨b, m, e⟩ := v
  obtain rfl : m = 2 ^ 52 := hmantissa
  obtain rfl : e = 11 := hexponent
  have hdecimal : (shortestDecimal .up ⟨b, 2 ^ 52, 11⟩).digits = 9223372036854776 ∧
      (shortestDecimal .up ⟨b, 2 ^ 52, 11⟩).exponent = 3 := by
    cases b <;> decide +kernel
  rw [Decimal.number, hdecimal.1, hdecimal.2]
  norm_num

/-! ## The texts of doubles -/

namespace Script

theorem floatText_eq {x : Float} {v : Magnitude} (h : Binary64.magnitude? x = some v) :
    floatText x = (if v.negative then "-" else "") ++
      (shortestDecimal .up v).strip.writePositional 16 := by
  unfold floatText Layout.writeFloat?
  rw [h]
  rfl

theorem toString_withSign {v : Magnitude} {n : Nat} (hn : 0 < n) :
    toString (v.withSign n) = (if v.negative then "-" else "") ++ toString n := by
  unfold Magnitude.withSign
  split
  · exact toString_neg hn
  · exact (String.empty_append).symm

/-- A name is not written like an integer. -/
theorem floatText_of_none {x : Float} (h : Binary64.magnitude? x = none) (z : Int) :
    floatText x ≠ toString z := by
  have hn : 'n' ∈ (floatText x).toList := by
    unfold floatText Layout.writeFloat?
    rw [h]
    dsimp only [Option.map]
    split
    · decide
    · split <;> decide
  exact ne_toString_of_mem hn (by decide) (by decide) z

section Finite

variable {x : Float} {v : Magnitude} (hx : Binary64.magnitude? x = some v)

include hx

/-- A double below the threshold has a point. -/
theorem dot_mem_floatText (h : v.size < 10 ^ 16) : '.' ∈ (floatText x).toList := by
  rw [floatText_eq hx, String.toList_append]
  refine List.mem_append_right _ ?_
  rcases Nat.eq_zero_or_pos v.mantissa with hzero | hpos
  · rw [shortestDecimal, if_pos hzero]
    decide +kernel
  · have hcanonical := canonical_of_magnitude? hx hpos
    obtain ⟨p, -, -, hlow, -, hupper⟩ := shortestDecimal_spec hpos hcanonical .up
    have hnumber := Decimal.number_strip (shortestDecimal .up v)
    refine Decimal.dot_mem_writePositional (p := 16) ?_ ?_
    · rw [hnumber]
      exact (zpow_pos (by norm_num) _).trans_le hlow
    · rw [hnumber]
      exact hupper.trans_lt (Shortest.upper_lt_threshold hcanonical h)

omit hx in
theorem mantissa_pos (h : 10 ^ 16 ≤ v.size) : 0 < v.mantissa := by
  refine Nat.pos_of_ne_zero fun hzero => ?_
  rw [Magnitude.size, hzero, Nat.cast_zero, zero_mul] at h
  norm_num at h

/-- A double above the threshold is written like the integer that its shortest decimal is. -/
theorem exists_whole (h : 10 ^ 16 ≤ v.size) : ∃ n : Nat, (shortestDecimal .up v).number = n ∧
    0 < n ∧ floatText x = toString (v.withSign n) := by
  have hpos := mantissa_pos h
  obtain ⟨p, ⟨-, hsize⟩, hexponent, hlow, -⟩ :=
    shortestDecimal_spec hpos (canonical_of_magnitude? hx hpos) .up
  -- at least seventeen digits before the point leave none for places behind it
  have hp : 16 < p := by
    have hpow : (10 : ℚ) ^ (16 : Int) < 10 ^ p := lt_of_le_of_lt (by norm_num at h ⊢; exact h) hsize
    exact (zpow_lt_zpow_iff_right₀ (by norm_num)).1 hpow
  have hnumber := Decimal.number_strip (shortestDecimal .up v)
  have hstrip := Decimal.exponent_le_strip (shortestDecimal .up v)
  have hten : (10 : ℚ) ^ (16 : Int) ≤ (shortestDecimal .up v).number :=
    (zpow_le_zpow_right₀ (by norm_num) (by omega)).trans hlow
  rw [← hnumber] at hten
  obtain ⟨n, hn, -⟩ := Decimal.exists_digits (d := (shortestDecimal .up v).strip)
    ((zpow_pos (by norm_num) _).trans_le hten) (by omega)
  have hle : 10 ^ 16 ≤ n := by
    rw [hn] at hten
    exact_mod_cast hten
  refine ⟨n, hnumber ▸ hn, (Nat.pow_pos (by decide)).trans_le hle, ?_⟩
  have hwrite : (shortestDecimal .up v).strip.writePositional 16 = toString n :=
    Decimal.writePositional_of_le (by omega) hn hle
  rw [floatText_eq hx, hwrite, toString_withSign ((Nat.pow_pos (by decide)).trans_le hle)]

/-- Within the range of the integers it is written like one of them. -/
theorem exists_text_eq (h : 10 ^ 16 ≤ v.size) (hlt : v.size < 2 ^ 63) :
    ∃ n : Int64, (Value.float x).text = (Value.int n).text := by
  obtain ⟨n, hn, -, htext⟩ := exists_whole hx h
  have hpos := mantissa_pos h
  have hcanonical := canonical_of_magnitude? hx hpos
  obtain ⟨p, -, -, -, -, hupper⟩ := shortestDecimal_spec hpos hcanonical .up
  have hrange : (n : ℚ) < 2 ^ 63 := hn ▸ hupper.trans_lt (Shortest.upper_lt_range hcanonical hlt)
  have hrange' : n < 2 ^ 63 := mod_cast hrange
  obtain ⟨k, hk⟩ : ∃ k : Int64, k.toInt = v.withSign n := by
    refine exists_toInt ?_
    unfold Magnitude.withSign
    split <;> exact ⟨by omega, by omega⟩
  exact ⟨k, htext.trans (congrArg toString hk.symm)⟩

/-- Beyond the range no integer of the language is written like it. -/
theorem text_ne_of_range_le (h : 2 ^ 63 ≤ v.size) (k : Int64) :
    (Value.float x).text ≠ (Value.int k).text := by
  have hthreshold : 10 ^ 16 ≤ v.size := le_trans (by norm_num) h
  obtain ⟨n, hn, -, htext⟩ := exists_whole hx hthreshold
  have hpos := mantissa_pos hthreshold
  have hcanonical := canonical_of_magnitude? hx hpos
  have hgreat : 2 ^ 63 < n := by
    rcases Shortest.range_lt_lower hcanonical hpos h with ⟨hmantissa, hexponent⟩ | hlower
    · have hfirst := hn.symm.trans (number_first hmantissa hexponent)
      have : n = 9223372036854776000 := mod_cast hfirst
      omega
    · obtain ⟨p, -, -, -, hle, -⟩ := shortestDecimal_spec hpos hcanonical .up
      exact_mod_cast hn ▸ hlower.trans_le hle
  intro heq
  have hsame : v.withSign n = k.toInt := Int.repr_inj.1 (htext.symm.trans heq)
  obtain ⟨hlow, hhigh⟩ := toInt_range k
  unfold Magnitude.withSign at hsame
  split at hsame <;> omega

end Finite

/-- No integer is written like a double if and only if the double is below ten to the sixteenth,
or beyond the range of the integers, or not finite. -/
theorem Value.text_float_ne_text_int_iff (x : Float) :
    (∀ n : Int64, (Value.float x).text ≠ (Value.int n).text) ↔
      ∀ v, Binary64.magnitude? x = some v → v.size < 10 ^ 16 ∨ 2 ^ 63 ≤ v.size := by
  constructor
  · intro h v hx
    by_contra hbetween
    obtain ⟨hlow, hhigh⟩ := not_or.1 hbetween
    obtain ⟨n, hn⟩ := exists_text_eq hx (not_lt.1 hlow) (not_le.1 hhigh)
    exact h n hn
  · intro h n heq
    cases hx : Binary64.magnitude? x with
    | none => exact floatText_of_none hx n.toInt heq
    | some v =>
      rcases h v hx with hlow | hhigh
      · have hdot := dot_mem_floatText hx hlow
        exact ne_toString_of_mem hdot (by decide) (by decide) n.toInt heq
      · exact text_ne_of_range_le hx hhigh n heq

/-- Ten to the sixteenth is written without a point. -/
theorem Value.text_float_eq_text_int :
    (Value.float 1e16).text = (Value.int 10000000000000000).text := by
  decide +kernel

end Script

end CalcDoc
