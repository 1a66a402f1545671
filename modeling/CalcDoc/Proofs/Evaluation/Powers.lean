import CalcDoc.Proofs.Definedness.Operators
import Mathlib

/-!
# Powers of integers

A power is made by squaring: the exponent is halved again and again, the base is squared with each
step, and each product has to stay in range. Products that do not fit are never made for a power
that fits, so this gives the exact power wherever it is an integer of the language. Exponents from
`2 ^ 32` on are not looked at, which is wrong for the bases 0, 1 and -1 only.

- `powerBySquaring?`: the power, by squaring in range.
- `powerBySquaring?_eq`: it is the exact power if that is in range, and otherwise there is none.
- `intPower?_eq`: so is the power of the language, below `2 ^ 32`.
- `Value.pow_ints`: what `**` answers for two integers.
- `Value.pow_overflows`: a power that is in range and is not answered.
-/

namespace CalcDoc.Script

/-! ## Powers by squaring -/

/-- A product in range. -/
def checkedProduct (a b : Int64) : Option Int64 :=
  int64? (a.toInt * b.toInt)

/-- The product of a power with its base, if the exponent is odd. -/
def takeBase (acc base : Int64) (n : Nat) : Option Int64 :=
  if n % 2 = 1 then checkedProduct acc base else some acc

/-- `acc` times the power of a base. A base is squared only if it is used again. -/
def powerBySquaring? (acc base : Int64) (n : Nat) : Option Int64 :=
  if n = 0 then some acc
  else
    (takeBase acc base n).bind fun acc =>
      if n = 1 then some acc
      else (checkedProduct base base).bind fun square => powerBySquaring? acc square (n / 2)
termination_by n
decreasing_by omega

section Range

variable {x y : Int}

/-- What is out of range stays so, if it is multiplied with a positive number. -/
theorem not_inRange_mul (hx : ¬ InRange x) (hy : 0 < y) : ¬ InRange (x * y) := by
  rintro ⟨hlow, hhigh⟩
  rcases lt_or_ge x 0 with hneg | hnonneg
  · have hle : x * y ≤ x := by nlinarith
    exact hx ⟨by omega, by omega⟩
  · have hle : x ≤ x * y := by nlinarith
    exact hx ⟨by omega, by omega⟩

/-- No square is `2 ^ 63`, so a square out of range is out of range with either sign. -/
theorem lt_square (h : ¬ InRange (x * x)) : 0x8000000000000000 < x * x := by
  have hnonneg := mul_self_nonneg x
  have hle : 0x8000000000000000 ≤ x * x := by omega
  have hroot : 3037000500 ≤ |x| := by
    by_contra hlt
    have hsquare : |x| * |x| ≤ 3037000499 * 3037000499 :=
      mul_self_le_mul_self (abs_nonneg x) (by omega)
    rw [abs_mul_abs_self] at hsquare
    omega
  have hsquare : 3037000500 * 3037000500 ≤ |x| * |x| :=
    mul_self_le_mul_self (by decide) hroot
  rw [abs_mul_abs_self] at hsquare
  omega

/-- So no multiple of it is in range, but zero. -/
theorem not_inRange_square_mul (h : ¬ InRange (x * x)) (hy : y ≠ 0) : ¬ InRange (x * x * y) := by
  have hlt := lt_square h
  rintro ⟨hlow, hhigh⟩
  rcases lt_or_gt_of_ne hy with hneg | hpos
  · nlinarith
  · nlinarith

end Range

/-- The base, if the exponent is odd. -/
def oddBase (x : Int) (n : Nat) : Int :=
  if n % 2 = 1 then x else 1

/-- A power is a power of the square, and for an odd exponent once more the base. -/
theorem pow_halves (x : Int) (n : Nat) : x ^ n = oddBase x n * (x * x) ^ (n / 2) := by
  rw [oddBase, ← pow_two, ← pow_mul]
  split
  · next hodd => rw [← pow_succ', show 2 * (n / 2) + 1 = n by omega]
  · next heven => rw [one_mul, show 2 * (n / 2) = n by omega]

theorem oddBase_ne_zero {x : Int} (hx : x ≠ 0) (n : Nat) : oddBase x n ≠ 0 := by
  unfold oddBase
  split
  · exact hx
  · exact one_ne_zero

theorem checkedProduct_cases (a b : Int64) :
    (∃ c : Int64, checkedProduct a b = some c ∧ c.toInt = a.toInt * b.toInt) ∨
      checkedProduct a b = none ∧ ¬ InRange (a.toInt * b.toInt) := by
  cases hc : checkedProduct a b with
  | some c => exact .inl ⟨c, rfl, (toInt_of_int64? hc).1⟩
  | none => exact .inr ⟨rfl, int64?_eq_none_iff.1 hc⟩

theorem takeBase_cases (acc base : Int64) (n : Nat) :
    (∃ c : Int64, takeBase acc base n = some c ∧ c.toInt = acc.toInt * oddBase base.toInt n) ∨
      takeBase acc base n = none ∧ ¬ InRange (acc.toInt * oddBase base.toInt n) := by
  unfold takeBase oddBase
  split
  · exact checkedProduct_cases acc base
  · exact .inl ⟨acc, rfl, (mul_one _).symm⟩

/-- What squaring gives is the exact product with the power, if that is in range. Where a product is
left out of range, so is the whole: the factors that follow it are squares, or it is a square itself
and no other factor is zero. -/
theorem powerBySquaring?_eq (acc base : Int64) (n : Nat) (h : base.toInt ≠ 0 → acc.toInt ≠ 0) :
    powerBySquaring? acc base n = int64? (acc.toInt * base.toInt ^ n) := by
  induction n using Nat.strong_induction_on generalizing acc base with
  | _ n ih =>
    rw [powerBySquaring?]
    by_cases hn : n = 0
    · rw [if_pos hn, hn, pow_zero, mul_one, int64?_toInt]
    rw [if_neg hn, pow_halves, ← mul_assoc]
    rcases takeBase_cases acc base n with ⟨c, htake, hc⟩ | ⟨htake, hout⟩
    · rw [htake, Option.bind_some, ← hc]
      by_cases hone : n = 1
      · rw [if_pos hone, hone, show 1 / 2 = 0 from rfl, pow_zero, mul_one, int64?_toInt]
      have hc0 : base.toInt ≠ 0 → c.toInt ≠ 0 := fun hbase => by
        rw [hc]
        exact mul_ne_zero (h hbase) (oddBase_ne_zero hbase n)
      rw [if_neg hone]
      rcases checkedProduct_cases base base with ⟨square, hsquare, heq⟩ | ⟨hsquare, hout⟩
      · rw [hsquare, Option.bind_some, ← heq]
        refine ih (n / 2) (by omega) c square fun hs => hc0 fun hbase => hs ?_
        rw [heq, hbase, mul_zero]
      · rw [hsquare, Option.bind_none, eq_comm, int64?_eq_none_iff]
        have hbase : base.toInt ≠ 0 := fun hbase => hout (by rw [hbase]; decide)
        obtain ⟨k, hk⟩ : ∃ k, n / 2 = k + 1 := ⟨n / 2 - 1, by omega⟩
        rw [hk, pow_succ', mul_left_comm]
        exact not_inRange_square_mul hout
          (mul_ne_zero (hc0 hbase) (pow_ne_zero k (mul_self_ne_zero.2 hbase)))
    · rw [htake, Option.bind_none, eq_comm, int64?_eq_none_iff]
      have hbase : base.toInt ≠ 0 := fun hbase => hout (by
        rw [hbase, oddBase]
        split
        · rw [mul_zero]; decide
        · rw [mul_one]; exact toInt_range acc)
      exact not_inRange_mul hout (pow_pos (mul_self_pos.2 hbase) _)

/-! ## Powers of the language -/

section Bases

variable {x : Int}

/-- The powers of 0, 1 and -1 only depend on whether the exponent is odd. -/
theorem pow_of_natAbs_le_one (hx : x.natAbs ≤ 1) (n : Nat) : x ^ (n + 2) = x ^ (n % 2 + 2) := by
  obtain rfl | rfl | rfl : x = 0 ∨ x = 1 ∨ x = -1 := by omega
  · rw [zero_pow (Nat.succ_ne_zero _), zero_pow (Nat.succ_ne_zero _)]
  · rw [one_pow, one_pow]
  · rw [neg_one_pow_eq_pow_mod_two, neg_one_pow_eq_pow_mod_two (n % 2 + 2),
      Nat.add_mod_right, Nat.add_mod_right, Nat.mod_mod]

theorem inRange_pow (hx : x.natAbs ≤ 1) (n : Nat) : InRange (x ^ n) := by
  have hle : (x ^ n).natAbs ≤ 1 := by
    rw [Int.natAbs_pow]
    exact pow_le_one₀ (Nat.zero_le _) hx
  exact ⟨by omega, by omega⟩

/-- All other bases leave the range. -/
theorem not_inRange_pow (hx : 1 < x.natAbs) {n : Nat} (hn : 64 ≤ n) : ¬ InRange (x ^ n) := by
  have hle : 2 ^ 64 ≤ (x ^ n).natAbs :=
    calc 2 ^ 64 ≤ 2 ^ n := Nat.pow_le_pow_right (by decide) hn
      _ ≤ x.natAbs ^ n := Nat.pow_le_pow_left hx n
      _ = (x ^ n).natAbs := (Int.natAbs_pow x n).symm
  rintro ⟨hlow, hhigh⟩
  omega

/-- The power of the language is the exact one, below `2 ^ 32`. -/
theorem intPower?_eq (x : Int) {n : Nat} (hn : n < UInt32.size) :
    intPower? x n = int64? (x ^ n) := by
  rw [intPower?, if_neg (Nat.not_le.2 hn)]
  by_cases hsmall : n < 64
  · rw [if_pos hsmall]
    rfl
  rw [if_neg hsmall]
  by_cases hx : x.natAbs ≤ 1
  · obtain ⟨k, rfl⟩ : ∃ k, n = k + 2 := ⟨n - 2, by omega⟩
    rw [if_pos hx, pow_of_natAbs_le_one hx, Nat.add_mod_right]
    rfl
  · rw [if_neg hx, eq_comm, int64?_eq_none_iff]
    exact not_inRange_pow (by omega) (by omega)

end Bases

section Powers

variable {a b : Int64}

theorem pow_eq (hb : 0 ≤ b) : (Value.int a).arith .pow (.int b) =
    (intPower? a.toInt b.toInt.toNat).elim (.error (.overflow (.arith .pow))) fun k =>
      .ok (.int k) := by
  show intArith .pow a b = _
  rw [intArith, if_neg (Int64.not_lt.2 hb)]
  cases intPower? a.toInt b.toInt.toNat <;> rfl

/-- Below `2 ^ 32` the answer is the exact power, or an overflow if it is out of range. -/
theorem pow_of_lt (hb : 0 ≤ b) (hlt : b.toInt.toNat < UInt32.size) :
    (∀ p : Int64, p.toInt = a.toInt ^ b.toInt.toNat →
      (Value.int a).arith .pow (.int b) = .ok (.int p)) ∧
    ((∀ p : Int64, p.toInt ≠ a.toInt ^ b.toInt.toNat) →
      (Value.int a).arith .pow (.int b) = .error (.overflow (.arith .pow))) := by
  rw [pow_eq hb, intPower?_eq a.toInt hlt]
  constructor
  · intro p hp
    rw [← hp, int64?_toInt]
    rfl
  · intro hnone
    cases hk : int64? (a.toInt ^ b.toInt.toNat) with
    | none => rfl
    | some k => exact absurd (toInt_of_int64? hk).1 (hnone k)

/-- From `2 ^ 32` on it is always an overflow. -/
theorem pow_of_le (hle : UInt32.size ≤ b.toInt.toNat) :
    (Value.int a).arith .pow (.int b) = .error (.overflow (.arith .pow)) := by
  have hsize : UInt32.size = 4294967296 := rfl
  have hb : 0 ≤ b := by
    rw [Int64.le_iff_toInt_le, Int64.toInt_zero]
    omega
  rw [pow_eq hb, intPower?, if_pos hle]
  rfl

end Powers

/-- What `**` answers for two integers, the exponent not being negative: the exact power if it is an
integer of the language, and an overflow if it is none. The exceptions are the powers of 0, 1 and
-1 to exponents from `2 ^ 32` on, which are in range and reported as overflows. Below `2 ^ 32`,
squaring in range makes exactly the powers that are in range. -/
theorem Value.pow_ints (a b : Int64) (hb : 0 ≤ b) :
    let answer := (Value.int a).arith .pow (.int b)
    let power := a.toInt ^ b.toInt.toNat
    (Value.int a).binary? (.arith .pow) (.int b) = total answer ∧
    (b.toInt < 2 ^ 32 → powerBySquaring? 1 a b.toInt.toNat = intPower? a.toInt b.toInt.toNat) ∧
    (¬ (a.toInt.natAbs ≤ 1 ∧ 2 ^ 32 ≤ b.toInt) →
      (∀ p : Int64, p.toInt = power → answer = .ok (.int p)) ∧
      ((∀ p : Int64, p.toInt ≠ power) → answer = .error (.overflow (.arith .pow)))) ∧
    (a.toInt.natAbs ≤ 1 ∧ 2 ^ 32 ≤ b.toInt →
      (∃ p : Int64, p.toInt = power) ∧ answer = .error (.overflow (.arith .pow))) := by
  intro answer power
  have hsize : UInt32.size = 4294967296 := rfl
  refine ⟨Value.arith?_eq .pow (.int a) (.int b), fun hlt => ?_, fun hnot => ?_, fun hsmall => ?_⟩
  · rw [intPower?_eq a.toInt (by omega), powerBySquaring?_eq 1 a _ fun _ => by decide]
    exact congrArg int64? (one_mul _)
  · by_cases hlt : b.toInt.toNat < UInt32.size
    · exact pow_of_lt hb hlt
    · -- the base is neither 0 nor 1 nor -1, and such a great power is out of range
      have hout : ¬ InRange power := not_inRange_pow (by omega) (by omega)
      exact ⟨fun p hp => absurd (hp ▸ toInt_range p) hout, fun _ => pow_of_le (by omega)⟩
  · exact ⟨exists_toInt (inRange_pow hsmall.1 _), pow_of_le (by omega)⟩

/-- The lowest integer as a power, a power just out of range, and a power of -1. -/
theorem Value.pow_ints_at_ends :
    (Value.int (-2)).arith .pow (.int 63) = .ok (.int (-0x8000000000000000)) ∧
    (Value.int 2).arith .pow (.int 63) = .error (.overflow (.arith .pow)) ∧
    (Value.int (-1)).arith .pow (.int 4294967295) = .ok (.int (-1)) := by
  refine ⟨?_, ?_, ?_⟩
  · obtain ⟨-, -, hpower, -⟩ := Value.pow_ints (-2) 63 (by decide)
    exact (hpower (by decide)).1 _ (by decide)
  · obtain ⟨-, -, hpower, -⟩ := Value.pow_ints 2 63 (by decide)
    refine (hpower (by decide)).2 fun p hp => ?_
    have hlt := p.toInt_lt
    rw [hp] at hlt
    exact absurd hlt (by decide)
  · obtain ⟨-, -, hpower, -⟩ := Value.pow_ints (-1) 4294967295 (by decide)
    refine (hpower (by decide)).1 _ ?_
    show (-1 : Int) = (-1) ^ 4294967295
    exact (Odd.neg_one_pow ⟨2147483647, by norm_num⟩).symm

/-- A power of one is one, and the answer to a great exponent is an overflow. -/
theorem Value.pow_overflows :
    (Value.int 1).arith .pow (.int 4294967296) = .error (.overflow (.arith .pow)) ∧
      (1 : Int64).toInt = (1 : Int64).toInt ^ (4294967296 : Int64).toInt.toNat := by
  refine ⟨pow_of_le (by decide), ?_⟩
  rw [show (1 : Int64).toInt = 1 from rfl, one_pow]

end CalcDoc.Script
