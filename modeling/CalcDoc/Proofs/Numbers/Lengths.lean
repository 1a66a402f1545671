import CalcDoc.Proofs.Bytes
import CalcDoc.Proofs.Numbers.Canonical
import CalcDoc.Script.Value
import Mathlib

/-!
# How long the text of a double is

No double is written with an exponent, so a great one has many digits and a small one many zeros.
How many is bounded by the exponents that doubles have.

- `magnitude?_bounds`: the mantissas and exponents of doubles.
- `digits_search`, `exponent_search`: the decimals that the search for a shortest one can end with.
- `shortestDecimal_bounds`, `strip_bounds`: the decimals that doubles are written with.
- `utf8ByteSize_floatText`: a bound on the bytes of the text of a double.
-/

namespace CalcDoc

/-! ## The range of doubles -/

/-- The mantissa of a double has 53 bits, and its exponent eleven with a bias. -/
theorem magnitude?_bounds {x : Float} {v : Binary64.Magnitude}
    (h : Binary64.magnitude? x = some v) :
    v.mantissa < 2 ^ 53 ∧ -1074 ≤ v.exponent ∧ v.exponent ≤ 971 := by
  unfold Binary64.magnitude? at h
  split at h
  · obtain rfl := Option.some.inj h
    decide
  · obtain rfl := Option.some.inj h
    decide
  · next hx =>
    obtain rfl := Option.some.inj h
    obtain ⟨hlt, hlow, hhigh, -⟩ := Binary64.canonical_of_unpack hx
    exact ⟨hlt, hlow, hhigh⟩
  · next hx =>
    obtain rfl := Option.some.inj h
    obtain ⟨hlt, hlow, hhigh, -⟩ := Binary64.canonical_of_unpack hx
    exact ⟨hlt, hlow, hhigh⟩
  · cases h
  · cases h

/-! ## The shortest decimal -/

namespace Shortest

theorem neighbour?_le {i : Interval} {tie : Tie} {n : Nat} (h : i.neighbour? tie = some n) :
    n ≤ i.value / i.denominator + 1 := by
  unfold Interval.neighbour? at h
  dsimp only at h
  split at h
  · cases h
  · obtain rfl := Option.some.inj h
    exact Nat.le_succ _
  · obtain rfl := Option.some.inj h
    exact Nat.le_refl _
  · obtain rfl := Option.some.inj h
    unfold Interval.nearest
    split
    · exact Nat.le_succ _
    · exact Nat.le_refl _
    · split
      · exact Nat.le_succ _
      · exact Nat.le_refl _

/-- The grids that are searched. -/
theorem exponent_search (i : Interval) (tie : Tie) (k : Int) (more : Nat) :
    k - more ≤ (search i tie k more).exponent ∧ (search i tie k more).exponent ≤ k := by
  induction more generalizing k with
  | zero => exact ⟨by simp [search], Int.le_refl k⟩
  | succ more ih =>
    rw [search]
    split
    · exact ⟨by dsimp only; omega, Int.le_refl k⟩
    · have := ih (k - 1)
      omega

/-- What is found is next to the value. -/
theorem digits_search (i : Interval) (tie : Tie) (k : Int) (more : Nat) :
    (search i tie k more).digits ≤
      i.value * Nat.pow 10 (-(search i tie k more).exponent).toNat + 1 := by
  have hdiv (k : Int) :
      (i.inUnits k).value / (i.inUnits k).denominator ≤ i.value * Nat.pow 10 (-k).toNat :=
    Nat.div_le_self _ _
  induction more generalizing k with
  | zero => exact Nat.le_succ_of_le (hdiv k)
  | succ more ih =>
    rw [search]
    split
    · next hn => exact (neighbour?_le hn).trans (Nat.succ_le_succ (hdiv k))
    · exact ih (k - 1)

theorem mul_pow_lt {a n : Nat} (h : a < 10 ^ n) (k : Nat) : a * Nat.pow 10 k < 10 ^ (n + k) := by
  rw [Nat.pow_add]
  exact Nat.mul_lt_mul_of_pos_right h (Nat.pow_pos (by decide))

/-- A number below a power of ten has few digits, also in finer units. -/
theorem length_toDigits_scaled {a n : Nat} (h : a < 10 ^ n) {k : Nat} (hk : 0 < k) (d : Nat) :
    (Nat.toDigits 10 (a * Nat.pow 10 k / d)).length ≤ n + k := by
  have hlt := Nat.lt_of_le_of_lt (Nat.div_le_self _ d) (mul_pow_lt h k)
  exact (Nat.length_toDigits_le_iff (by decide) (by omega)).2 hlt

theorem pointPosition_bounds {i : Interval} {n : Nat} (h : i.value < 10 ^ n) :
    -400 ≤ i.pointPosition ∧ i.pointPosition ≤ n := by
  have hlength := length_toDigits_scaled h (k := 400) (by decide) i.denominator
  unfold Interval.pointPosition
  omega

/-- The value of a double, over its denominator, is below a power of ten. -/
theorem exists_value_lt {v : Binary64.Magnitude} (hmantissa : v.mantissa < 2 ^ 53)
    (hexponent : v.exponent ≤ 971) : ∃ n ≤ 343, (Interval.ofMagnitude v).value < 10 ^ n := by
  generalize hs : (v.exponent - 2).toNat = s
  refine ⟨(55 + s) / 3 + 1, by omega, ?_⟩
  calc (Interval.ofMagnitude v).value
      = 4 * v.mantissa * 2 ^ s := by
        show 4 * v.mantissa * (1 <<< (v.exponent - 2).toNat) = _
        rw [Nat.one_shiftLeft, hs]
    _ < 2 ^ 55 * 2 ^ s := Nat.mul_lt_mul_of_pos_right (by omega) (Nat.pow_pos (by decide))
    _ = 2 ^ (55 + s) := (Nat.pow_add 2 55 s).symm
    _ ≤ 2 ^ (3 * ((55 + s) / 3 + 1)) := Nat.pow_le_pow_right (by decide) (by omega)
    _ = (2 ^ 3) ^ ((55 + s) / 3 + 1) := Nat.pow_mul 2 3 _
    _ ≤ 10 ^ ((55 + s) / 3 + 1) := Nat.pow_le_pow_left (by decide) _

end Shortest

/-- The decimal that a double is written with has a bounded number of digits, and an exponent in a
bounded range. -/
theorem shortestDecimal_bounds {x : Float} {v : Binary64.Magnitude}
    (h : Binary64.magnitude? x = some v) (tie : Tie) :
    (∃ n ≤ 762, (shortestDecimal tie v).digits < 10 ^ n) ∧
      -418 ≤ (shortestDecimal tie v).exponent ∧ (shortestDecimal tie v).exponent ≤ 343 := by
  obtain ⟨hmantissa, -, hexponent⟩ := magnitude?_bounds h
  unfold shortestDecimal
  split
  · exact ⟨⟨1, by decide, by decide⟩, by decide, by decide⟩
  · let i := Shortest.Interval.ofMagnitude v
    obtain ⟨n, hn, hvalue⟩ : ∃ n ≤ 343, i.value < 10 ^ n :=
      Shortest.exists_value_lt hmantissa hexponent
    obtain ⟨hlow, hhigh⟩ := Shortest.pointPosition_bounds hvalue
    obtain ⟨hlow', hhigh'⟩ := Shortest.exponent_search i tie (i.pointPosition - 1) 17
    have hdigits := Shortest.digits_search i tie (i.pointPosition - 1) 17
    generalize Shortest.search i tie (i.pointPosition - 1) 17 = d at hlow' hhigh' hdigits
    generalize hk : (-d.exponent).toNat = k at hdigits
    refine ⟨⟨n + k + 1, by omega, ?_⟩, by omega, by omega⟩
    calc d.digits
        ≤ i.value * Nat.pow 10 k + 1 := hdigits
      _ ≤ 10 ^ (n + k) := Shortest.mul_pow_lt hvalue k
      _ < 10 ^ (n + k + 1) := Nat.pow_lt_pow_right (by decide) (Nat.lt_succ_self _)

/-- Without its trailing zeros a decimal has no more digits, and its exponent grows by at most their
number. -/
theorem strip_bounds {d : Decimal} {n : Nat} (h : d.digits < 10 ^ n) :
    d.strip.digits < 10 ^ n ∧ d.exponent ≤ d.strip.exponent ∧
      d.strip.exponent ≤ d.exponent + n := by
  fun_induction Decimal.strip d generalizing n with
  | case1 d hd ih =>
    cases n with
    | zero => exact absurd (Nat.lt_one_iff.1 h) hd.1
    | succ n =>
      have hdiv : d.digits / 10 < 10 ^ n := by
        rw [Nat.div_lt_iff_lt_mul (by decide), ← Nat.pow_succ]
        exact h
      obtain ⟨hdigits, hlow, hhigh⟩ := ih hdiv
      dsimp only at hlow hhigh
      refine ⟨hdigits.trans (Nat.pow_lt_pow_right (by decide) (Nat.lt_succ_self n)), ?_, ?_⟩
      · omega
      · omega
  | case2 d _ => exact ⟨h, Int.le_refl _, by omega⟩

/-! ## The text -/

theorem utf8ByteSize_writePositional {d : Decimal} {n : Nat} (h : d.digits < 10 ^ n)
    (pointed : Int) :
    (d.writePositional pointed).utf8ByteSize ≤ 4 * (n + d.exponent.natAbs + 3) := by
  have hlt : d.digits < 10 ^ (n + 1) :=
    h.trans (Nat.pow_lt_pow_right (by decide) (Nat.lt_succ_self n))
  have hlength := (Nat.length_toDigits_le_iff (b := 10) (by decide) (Nat.succ_pos n)).2 hlt
  unfold Decimal.writePositional
  dsimp only
  split
  · refine (Text.byteSize_le_length _).trans (Nat.mul_le_mul_left 4 ?_)
    split
    · simp only [List.length_append, List.length_replicate, List.length_cons, List.length_nil]
      omega
    · simp only [List.length_append, List.length_replicate]
      omega
  · split
    · refine (Text.byteSize_le_length _).trans (Nat.mul_le_mul_left 4 ?_)
      simp only [List.length_append, List.length_cons, List.length_take, List.length_drop]
      omega
    · refine (Text.byteSize_le_length _).trans (Nat.mul_le_mul_left 4 ?_)
      simp only [List.length_append, List.length_cons, List.length_replicate]
      omega

/-- The text of a double has at most 16384 bytes. -/
theorem utf8ByteSize_floatText (x : Float) : (Script.floatText x).utf8ByteSize ≤ 16384 := by
  unfold Script.floatText Layout.writeFloat?
  cases hx : Binary64.magnitude? x with
  | none =>
    dsimp only [Option.map]
    split
    · decide
    · split <;> decide
  | some v =>
    obtain ⟨⟨n, hn, hdigits⟩, hlow, hhigh⟩ := shortestDecimal_bounds hx Script.valueLayout.tie
    obtain ⟨hdigits', hlow', hhigh'⟩ := strip_bounds hdigits
    have htext := utf8ByteSize_writePositional hdigits' Script.valueLayout.pointed
    have hsign : (if v.negative = true then "-" else "").utf8ByteSize ≤ 1 := by
      split <;> decide
    dsimp only [Option.map]
    rw [String.utf8ByteSize_append]
    show _ + ((shortestDecimal _ v).strip.writePositional _).utf8ByteSize ≤ _
    omega

end CalcDoc
