import CalcDoc.Proofs.Evaluation.Equality
import CalcDoc.Proofs.Numbers.Conversion
import CalcDoc.Script.Evaluation

/-!
# From numbers to integers

A double is cut off to an integer, or rounded to the nearest one, in exact arithmetic. What is lost
is lost before and after: rounding takes an integer as a double, too, and the lowest integer of the
language counts as out of range.

- `truncation`, `halvesAway`: a rational number cut off toward zero, and rounded to the nearest
  integer with halves going away from zero.
- `Binary64.truncate?_eq`, `Binary64.roundAway?_eq`: doubles are cut off and rounded by their exact
  values.
- `Delivers`: what a function gives for an integer, if it loses none.
- `Value.int_round_numbers`: where the functions do so, and what they give elsewhere.
- `Value.int_round_inexact`: the integers that are lost.
-/

namespace CalcDoc

/-- A rational number cut off toward zero. -/
def truncation (q : ℚ) : Int :=
  if 0 ≤ q then ⌊q⌋ else ⌈q⌉

/-- The integer nearest to a rational number; halves go away from zero. -/
def halvesAway (q : ℚ) : Int :=
  if 0 ≤ q then ⌊q + 1 / 2⌋ else ⌈q - 1 / 2⌉

theorem truncation_neg {q : ℚ} (h : 0 ≤ q) : truncation (-q) = -⌊q⌋ := by
  rcases h.eq_or_lt with rfl | hpos
  · decide +kernel
  · rw [truncation, if_neg (by linarith), Int.ceil_neg]

theorem halvesAway_neg {q : ℚ} (h : 0 ≤ q) : halvesAway (-q) = -⌊q + 1 / 2⌋ := by
  rcases h.eq_or_lt with rfl | hpos
  · decide +kernel
  · rw [halvesAway, if_neg (by linarith), ← Int.ceil_neg]
    ring_nf

/-- Integers are kept. -/
theorem truncation_intCast (n : Int) : truncation n = n := by
  unfold truncation
  rw [Int.floor_intCast, Int.ceil_intCast]
  exact ite_self n

theorem halvesAway_intCast (n : Int) : halvesAway n = n := by
  unfold halvesAway
  split
  · exact Int.floor_eq_iff.2 ⟨by linarith, by linarith⟩
  · exact Int.ceil_eq_iff.2 ⟨by linarith, by linarith⟩

namespace Binary64

namespace Magnitude

/-- The number without its sign. -/
def size (v : Magnitude) : ℚ :=
  v.mantissa * 2 ^ v.exponent

/-- The number. -/
def value (v : Magnitude) : ℚ :=
  if v.negative then -v.size else v.size

variable (v : Magnitude)

theorem size_nonneg : 0 ≤ v.size :=
  mul_nonneg (Nat.cast_nonneg _) (zpow_nonneg zero_le_two _)

/-- The size as a quotient, or as an integer. -/
theorem size_cases :
    (0 ≤ v.exponent ∧ v.size = (v.mantissa <<< v.exponent.toNat : Nat)) ∨
      ¬ 0 ≤ v.exponent ∧ v.size = (v.mantissa : ℚ) / (2 ^ (-v.exponent).toNat : Nat) := by
  by_cases h : 0 ≤ v.exponent
  · refine .inl ⟨h, ?_⟩
    obtain ⟨k, hk⟩ := Int.eq_ofNat_of_zero_le h
    rw [size, hk, Int.toNat_natCast, Nat.shiftLeft_eq, zpow_natCast]
    push_cast
    rfl
  · refine .inr ⟨h, ?_⟩
    obtain ⟨k, hk⟩ := Int.eq_ofNat_of_zero_le (show 0 ≤ -v.exponent by omega)
    rw [size, show v.exponent = -(k : Int) by omega, neg_neg, Int.toNat_natCast, zpow_neg,
      zpow_natCast, div_eq_mul_inv]
    push_cast
    rfl

theorem truncate_eq : (v.truncate : Int) = ⌊v.size⌋ := by
  unfold truncate
  rcases v.size_cases with ⟨he, hsize⟩ | ⟨he, hsize⟩
  · rw [if_pos he, hsize, Int.floor_natCast]
  · rw [if_neg he, hsize, Nat.shiftRight_eq_div_pow, Rat.floor_natCast_div_natCast]
    rfl

theorem round_eq : (v.round : Int) = ⌊v.size + 1 / 2⌋ := by
  unfold round
  rcases v.size_cases with ⟨he, hsize⟩ | ⟨he, hsize⟩
  · rw [if_pos he, hsize, Int.floor_natCast_add, show ⌊(1 / 2 : ℚ)⌋ = 0 by norm_num, add_zero]
  · generalize (-v.exponent).toNat = k at hsize
    have hpow : (2 ^ k : ℚ) ≠ 0 := pow_ne_zero k two_ne_zero
    have hhalf : v.size + (1 / 2 : ℚ) =
        ((2 * v.mantissa + 1 <<< k : Nat) : ℚ) / ((2 ^ (k + 1) : Nat) : ℚ) := by
      rw [hsize, Nat.shiftLeft_eq]
      push_cast
      field_simp
      ring
    rw [if_neg he, hhalf, Nat.shiftRight_eq_div_pow, Rat.floor_natCast_div_natCast]
    rfl

theorem withSign_truncate : v.withSign v.truncate = truncation v.value := by
  unfold withSign value
  split
  · rw [truncation_neg v.size_nonneg, truncate_eq]
  · rw [truncation, if_pos v.size_nonneg, truncate_eq]

theorem withSign_round : v.withSign v.round = halvesAway v.value := by
  unfold withSign value
  split
  · rw [halvesAway_neg v.size_nonneg, round_eq]
  · rw [halvesAway, if_pos v.size_nonneg, round_eq]

end Magnitude

theorem value?_eq (x : Float) : value? x = (magnitude? x).map Magnitude.value := by
  unfold value? magnitude?
  cases x.toModel.unpack with
  | infinity s => rfl
  | notANumber => rfl
  | zero s => cases s <;> simp [valueOf?, Magnitude.value, Magnitude.size]
  | finite s m e hm =>
    cases s with
    | positive => rfl
    | negative => exact congrArg some (negative_value m e)

/-- Doubles are cut off by their exact values. -/
theorem truncate?_eq (x : Float) : truncate? x = (value? x).map truncation := by
  rw [value?_eq, Option.map_map, truncate?]
  congr 1
  exact funext Magnitude.withSign_truncate

/-- They are rounded by their exact values. -/
theorem roundAway?_eq (x : Float) : roundAway? x = (value? x).map halvesAway := by
  rw [value?_eq, Option.map_map, roundAway?]
  congr 1
  exact funext Magnitude.withSign_round

end Binary64

namespace Script

/-! ## The functions -/

/-- The lowest integer of the language. -/
abbrev lowest : Int :=
  -0x8000000000000000

/-- The number that a value stands for; a boolean stands for 0 or 1. -/
def Value.rational? : Value → Option ℚ
  | .bool b => some (if b then 1 else 0)
  | .int n => some n.toInt
  | .float x => Binary64.value? x
  | .absent | .str _ => none

/-- What a function gives for an integer: this integer, if it is one of the language, else an
overflow. Without an integer it is an overflow, too. -/
structure Delivers (f : Builtin) (n? : Option Int) (answer : Except Error Value) : Prop where
  inRange : ∀ k : Int64, n? = some k.toInt → answer = .ok (.int k)
  outOfRange : (∀ k : Int64, n? ≠ some k.toInt) → answer = .error (.overflow (.builtin f))

/-- The same, but the lowest integer counts as out of range. -/
structure DeliversAboveLowest (f : Builtin) (n? : Option Int) (answer : Except Error Value) :
    Prop where
  above : n? ≠ some lowest → Delivers f n? answer
  atLowest : n? = some lowest → answer = .error (.overflow (.builtin f))

section Delivers

variable {f : Builtin} {n : Int} {n? : Option Int}

theorem delivers_int (f : Builtin) (k : Int64) : Delivers f (some k.toInt) (.ok (.int k)) where
  inRange k' h := by rw [Int64.toInt_inj.1 (Option.some.inj h)]
  outOfRange h := absurd rfl (h k)

theorem nearestInt_lowest (f : Builtin) :
    nearestInt f (some lowest) = .error (.overflow (.builtin f)) :=
  rfl

theorem nearestInt_toInt {k : Int64} (h : k.toInt ≠ lowest) :
    nearestInt f (some k.toInt) = .ok (.int k) := by
  have hrange := toInt_range k
  have hsmall : k.toInt.natAbs < 0x8000000000000000 := by
    unfold InRange lowest at *
    omega
  rw [nearestInt, if_pos hsmall, checkedInt, int64?_toInt]

theorem nearestInt_outOfRange (h : ∀ k : Int64, n? ≠ some k.toInt) :
    nearestInt f n? = .error (.overflow (.builtin f)) := by
  unfold nearestInt
  split
  · next n =>
    have hnone : int64? n = none := int64?_eq_none_iff.2 fun hrange => by
      obtain ⟨k, rfl⟩ := exists_toInt hrange
      exact h k rfl
    rw [checkedInt, hnone]
    exact ite_self _
  · rfl

theorem deliversAboveLowest_nearestInt (f : Builtin) (n? : Option Int) :
    DeliversAboveLowest f n? (nearestInt f n?) where
  above h := by
    refine ⟨fun k hk => ?_, nearestInt_outOfRange⟩
    subst hk
    exact nearestInt_toInt fun heq => h (congrArg some heq)
  atLowest h := by rw [h, nearestInt_lowest]

/-- The lowest integer is one of the language. -/
theorem DeliversAboveLowest.delivers_iff {answer : Except Error Value}
    (h : DeliversAboveLowest f n? answer) : Delivers f n? answer ↔ n? ≠ some lowest := by
  refine ⟨fun hdelivers hlow => ?_, h.above⟩
  have hok := hdelivers.inRange (-0x8000000000000000) hlow
  rw [h.atLowest hlow] at hok
  cases hok

theorem delivers_nearestInt_int_iff {k : Int64} :
    Delivers f (some k.toInt) (nearestInt f (some n)) ↔ k.toInt ≠ lowest ∧ n = k.toInt := by
  constructor
  · intro h
    have hok := h.inRange k rfl
    by_cases hrange : InRange n
    · obtain ⟨m, rfl⟩ := exists_toInt hrange
      by_cases hlow : m.toInt = lowest
      · rw [hlow, nearestInt_lowest] at hok
        cases hok
      · rw [nearestInt_toInt hlow] at hok
        cases hok
        exact ⟨hlow, rfl⟩
    · have hout : nearestInt f (some n) = .error (.overflow (.builtin f)) :=
        nearestInt_outOfRange fun m hm => hrange (Option.some.inj hm ▸ toInt_range m)
      rw [hout] at hok
      cases hok
  · rintro ⟨hlow, rfl⟩
    rw [nearestInt_toInt hlow]
    exact delivers_int f k

end Delivers

namespace Value

variable {v : Value}

theorem bool_or_int {k : Int64} (h : v.toInt? = some k) :
    (∃ b, v = .bool b ∧ k = if b then 1 else 0) ∨ v = .int k := by
  cases v with
  | bool b => exact .inl ⟨b, rfl, (Option.some.inj h).symm⟩
  | int n => exact .inr (congrArg Value.int (Option.some.inj h))
  | absent => cases h
  | float x => cases h
  | str s => cases h

theorem rational?_of_toInt? {k : Int64} (h : v.toInt? = some k) :
    v.rational? = some (k.toInt : ℚ) := by
  rcases bool_or_int h with ⟨b, rfl, rfl⟩ | rfl
  · cases b <;> decide +kernel
  · rfl

theorem int_of_toInt? {k : Int64} (h : v.toInt? = some k) :
    callFunction "int" [v] = .ok (.int k) := by
  rcases bool_or_int h with ⟨b, rfl, rfl⟩ | rfl <;> rfl

theorem int_float (x : Float) :
    callFunction "int" [.float x] = nearestInt .int ((Binary64.value? x).map truncation) := by
  show nearestInt .int (Binary64.truncate? x) = _
  rw [Binary64.truncate?_eq]

theorem round_of_toFloat? {x : Float} (h : v.toFloat? = some x) :
    callFunction "round" [v] = nearestInt .round ((Binary64.value? x).map halvesAway) := by
  show roundValue v = _
  rw [roundValue, needNumber, h, ← Binary64.roundAway?_eq]

theorem round_of_toInt? {k : Int64} (h : v.toInt? = some k) :
    callFunction "round" [v] = nearestInt .round (some (Binary64.nearest k.toInt)) := by
  rw [round_of_toFloat? (toFloat?_of_toInt? h), Binary64.value?_intToFloat]
  exact congrArg (fun n => nearestInt .round (some n)) (halvesAway_intCast _)

theorem kept_of_toInt? {k : Int64} (h : v.toInt? = some k) :
    v.rational?.map truncation = some k.toInt ∧ v.rational?.map halvesAway = some k.toInt := by
  rw [rational?_of_toInt? h]
  exact ⟨congrArg some (truncation_intCast _), congrArg some (halvesAway_intCast _)⟩

theorem exists_float (hv : v.isNumber) (h : v.toInt? = none) : ∃ x, v = .float x := by
  cases v with
  | float x => exact ⟨x, rfl⟩
  | bool b => cases h
  | int n => cases h
  | absent => cases hv
  | str s => cases hv

/-- Floats are cut off and rounded exactly, except that the lowest integer is not delivered. The
other numbers are kept when they are cut off. When they are rounded, they are taken as doubles
first: those of at most 53 significant bits are kept, again but for the lowest one, and of all
others the nearest one with 53 bits is delivered. -/
theorem int_round_numbers (v : Value) (hv : v.isNumber) :
    let cut := v.rational?.map truncation
    let rounded := v.rational?.map halvesAway
    (Delivers .int cut (callFunction "int" [v]) ↔ (v.toInt? = none → cut ≠ some lowest)) ∧
    (Delivers .round rounded (callFunction "round" [v]) ↔ rounded ≠ some lowest ∧
      ∀ n, v.toInt? = some n → ∃ (m : Int) (k : Nat), n.toInt = m * 2 ^ k ∧ m.natAbs < 2 ^ 53) ∧
    (v.toInt? = none → DeliversAboveLowest .int cut (callFunction "int" [v]) ∧
      DeliversAboveLowest .round rounded (callFunction "round" [v])) ∧
    (∀ n, v.toInt? = some n →
      DeliversAboveLowest .round (some (Binary64.nearest n.toInt)) (callFunction "round" [v])) := by
  intro cut rounded
  cases h : v.toInt? with
  | some n =>
    obtain ⟨hcut, hrounded⟩ := kept_of_toInt? h
    have hround := round_of_toInt? h
    simp only [cut, rounded, hcut, hrounded, hround, int_of_toInt? h]
    refine ⟨iff_of_true (delivers_int .int n) nofun, ?_, nofun, ?_⟩
    · rw [delivers_nearestInt_int_iff, Binary64.nearest_eq_iff]
      simp
    · intro m hm
      cases hm
      exact deliversAboveLowest_nearestInt .round _
  | none =>
    obtain ⟨x, rfl⟩ := exists_float hv h
    have hcut : DeliversAboveLowest .int cut (callFunction "int" [.float x]) := by
      rw [int_float]
      exact deliversAboveLowest_nearestInt .int cut
    have hrounded : DeliversAboveLowest .round rounded (callFunction "round" [.float x]) := by
      rw [round_of_toFloat? rfl]
      exact deliversAboveLowest_nearestInt .round rounded
    refine ⟨?_, ?_, fun _ => ⟨hcut, hrounded⟩, nofun⟩
    · simpa using hcut.delivers_iff
    · simpa using hrounded.delivers_iff

/-- A half below zero, and an integer that needs all of the 53 bits. -/
theorem int_round_numbers_of_half :
    callFunction "int" [.float (-2.5)] = .ok (.int (-2)) ∧
    callFunction "round" [.float (-2.5)] = .ok (.int (-3)) ∧
    callFunction "round" [.int 9007199254740991] = .ok (.int 9007199254740991) := by
  have hvalue : Binary64.value? (-2.5) = some (-5 / 2) := by
    show some (((-5629499534213120 : Int) : ℚ) * 2 ^ (-51 : Int)) = _
    norm_num
  have hcut : (Value.float (-2.5)).rational?.map truncation = some (-2 : Int64).toInt := by
    show (Binary64.value? (-2.5)).map truncation = _
    rw [hvalue]
    exact congrArg some (show truncation (-5 / 2) = -2 by norm_num [truncation])
  have hhalf : (Value.float (-2.5)).rational?.map halvesAway = some (-3 : Int64).toInt := by
    show (Binary64.value? (-2.5)).map halvesAway = _
    rw [hvalue]
    exact congrArg some (show halvesAway (-5 / 2) = -3 by norm_num [halvesAway])
  have hexact := (kept_of_toInt? (show (int 9007199254740991).toInt? = _ from rfl)).2
  obtain ⟨-, -, hfloat, -⟩ := int_round_numbers (.float (-2.5)) rfl
  obtain ⟨-, hround, -, -⟩ := int_round_numbers (.int 9007199254740991) rfl
  refine ⟨?_, ?_, ?_⟩
  · exact ((hfloat rfl).1.above (by rw [hcut]; decide)).inRange (-2) hcut
  · exact ((hfloat rfl).2.above (by rw [hhalf]; decide)).inRange (-3) hhalf
  · refine (hround.2 ⟨by rw [hexact]; decide, fun n hn => ?_⟩).inRange _ hexact
    cases hn
    exact ⟨9007199254740991, 0, by decide⟩

/-- Rounding loses the last bit of an integer with 54 of them. The greatest integer is lost, since
the double nearest to it is out of range, and the lowest one, since it counts as out of range. -/
theorem int_round_inexact :
    (callFunction "round" [.int 9007199254740993] = .ok (.int 9007199254740992) ∧
      (Value.int 9007199254740993).rational?.map halvesAway = some 9007199254740993) ∧
    (callFunction "round" [.int 0x7fffffffffffffff] = .error (.overflow (.builtin .round)) ∧
      (Value.int 0x7fffffffffffffff).rational?.map halvesAway = some 0x7fffffffffffffff) ∧
    (callFunction "int" [.float (-9223372036854775808)] = .error (.overflow (.builtin .int)) ∧
      (Value.float (-9223372036854775808)).rational?.map truncation = some lowest) := by
  have hrounded (k : Int64) := (kept_of_toInt? (show (int k).toInt? = some k from rfl)).2
  refine ⟨⟨?_, hrounded 9007199254740993⟩, ⟨?_, hrounded 0x7fffffffffffffff⟩, ?_⟩
  · rw [round_of_toInt? rfl, show Binary64.nearest (9007199254740993 : Int64).toInt =
      (9007199254740992 : Int64).toInt by decide +kernel]
    exact nearestInt_toInt (by decide)
  · rw [round_of_toInt? rfl, show Binary64.nearest (0x7fffffffffffffff : Int64).toInt =
      0x8000000000000000 by decide +kernel]
    rfl
  · have hcut : (Value.float (-9223372036854775808)).rational?.map truncation = some lowest := by
      have hvalue := Binary64.value?_ofInt (show lowest.natAbs < 2 ^ 64 by decide)
      rw [show Binary64.nearest lowest = lowest by decide +kernel] at hvalue
      show (Binary64.value? (Float.ofInt lowest)).map truncation = _
      rw [hvalue]
      exact congrArg some (truncation_intCast lowest)
    refine ⟨?_, hcut⟩
    rw [int_float]
    exact (deliversAboveLowest_nearestInt .int _).atLowest hcut

end Value

end Script

end CalcDoc
