import CalcDoc.Script.Arithmetic
import Mathlib

/-!
# Equality across kinds

Two integers are compared exactly, an integer and a double as doubles. So equality is reflexive
but for NaN and symmetric, but two integers that are rounded to one double are both equal to it and
not to each other.

- `Binary64.beq_iff`: doubles are equal if they are the same number, whatever the sign of a zero.
- `Value.looseEq_ints`, `Value.looseEq_floats`, `Value.looseEq_others`: the three ways in which
  values are compared.
- `Value.looseEq_laws`: the laws of equality, and exactly where it is not transitive.
-/

namespace CalcDoc

/-! ## Doubles -/

namespace Binary64

open Float.Model (UnpackedFloat)

variable {x y z : Float}

/-- A number without the sign of a zero. -/
def unsignedZero : UnpackedFloat → UnpackedFloat
  | .zero _ => .zero .positive
  | u => u

theorem compare_sign {s s' : UnpackedFloat.Sign} : Ord.compare s s' = .eq ↔ s = s' := by
  cases s <;> cases s' <;> first | exact ⟨fun _ => rfl, fun _ => rfl⟩ | exact ⟨nofun, nofun⟩

theorem compare_finite {s s' : UnpackedFloat.Sign} {m m' : Nat} {e e' : Int} {hm : 0 < m}
    {hm' : 0 < m'} :
    (UnpackedFloat.finite s m e hm).compare (.finite s' m' e' hm') = some .eq ↔
      s = s' ∧ m = m' ∧ e = e' := by
  have hthen : (Ord.compare e e').then (Ord.compare m m') = .eq ↔ m = m' ∧ e = e' := by
    rw [Ordering.then_eq_eq, Std.LawfulEqCmp.compare_eq_iff_eq, Std.LawfulEqCmp.compare_eq_iff_eq,
      and_comm]
  cases s <;> cases s' <;> simp [UnpackedFloat.compare, hthen]

theorem compare_eq_iff {u v : UnpackedFloat} :
    u.compare v = some .eq ↔ u ≠ .notANumber ∧ unsignedZero u = unsignedZero v := by
  cases u with
  | notANumber => exact ⟨nofun, fun h => absurd rfl h.1⟩
  | infinity s =>
    cases v with
    | infinity s' => simp [UnpackedFloat.compare, unsignedZero, compare_sign]
    | _ => cases s <;> simp [UnpackedFloat.compare, unsignedZero]
  | zero s =>
    cases v with
    | zero s' => simp [UnpackedFloat.compare, unsignedZero]
    | finite s' m e hm => cases s' <;> simp [UnpackedFloat.compare, unsignedZero]
    | infinity s' => cases s' <;> simp [UnpackedFloat.compare, unsignedZero]
    | notANumber => simp [UnpackedFloat.compare, unsignedZero]
  | finite s m e hm =>
    cases v with
    | finite s' m' e' hm' => simp [compare_finite, unsignedZero]
    | zero s' => cases s <;> simp [UnpackedFloat.compare, unsignedZero]
    | infinity s' => cases s' <;> simp [UnpackedFloat.compare, unsignedZero]
    | notANumber => simp [UnpackedFloat.compare, unsignedZero]

/-- Two doubles are equal if they are the same number. -/
theorem beq_iff : x == y ↔ x.toModel.unpack ≠ .notANumber ∧
    unsignedZero x.toModel.unpack = unsignedZero y.toModel.unpack := by
  rw [← compare_eq_iff]
  show (x.toModel.unpack.compare y.toModel.unpack == some .eq) = true ↔ _
  exact beq_iff_eq

theorem eq_notANumber_of_unsignedZero {u v : UnpackedFloat}
    (h : unsignedZero u = unsignedZero v) (hv : v = .notANumber) : u = .notANumber := by
  subst hv
  cases u with
  | notANumber => rfl
  | _ => cases h

theorem beq_symm (h : x == y) : y == x := by
  obtain ⟨hx, heq⟩ := beq_iff.1 h
  exact beq_iff.2 ⟨fun hy => hx (eq_notANumber_of_unsignedZero heq hy), heq.symm⟩

theorem beq_trans (h : x == y) (h' : y == z) : x == z := by
  obtain ⟨hx, heq⟩ := beq_iff.1 h
  exact beq_iff.2 ⟨hx, heq.trans (beq_iff.1 h').2⟩

/-- NaN is the one double that is not equal to itself. -/
theorem beq_self (x : Float) : (x == x) = !x.isNaN := by
  have hnan : x.isNaN ↔ x.toModel.unpack = .notANumber := by
    show x.toModel.unpack.isNaN ↔ _
    unfold UnpackedFloat.isNaN
    split
    · next h => simp [h]
    · next h => simpa using h
  rw [Bool.eq_iff_iff, beq_iff, Bool.not_eq_true', ← Bool.not_eq_true, hnan]
  exact and_iff_left rfl

theorem beq_eq_false_of_lt (h : x < y) : (x == y) = false := by
  have hlt : x.toModel.unpack.compare y.toModel.unpack = some .lt :=
    beq_iff_eq.1 (of_decide_eq_true (show decide (x.toModel < y.toModel) = true from h))
  refine Bool.eq_false_iff.2 fun heq => ?_
  rw [compare_eq_iff.2 (beq_iff.1 heq)] at hlt
  cases hlt

/-- The order of two doubles, as far as equality goes. -/
theorem isEq_order? (x y : Float) : (order? x y).elim false Ordering.isEq = (x == y) := by
  rw [order?]
  split
  · next hlt => rw [beq_eq_false_of_lt hlt]; rfl
  · split
    · next heq => rw [heq]; rfl
    · next hne =>
      rw [Bool.eq_false_iff.2 hne]
      split <;> rfl

end Binary64

/-! ## Values -/

namespace Script

namespace Value

variable {a b c : Value}

theorem isNumber_of_toFloat? {x : Float} (h : a.toFloat? = some x) : a.isNumber := by
  cases a <;> first | rfl | cases h

theorem toFloat?_of_toInt? {n : Int64} (h : a.toInt? = some n) :
    a.toFloat? = some (intToFloat n) := by
  cases a with
  | bool b => cases b <;> cases h <;> rfl
  | int m => cases h; rfl
  | absent => cases h
  | float x => cases h
  | str s => cases h

theorem exists_toFloat? (h : a.isNumber) : ∃ x, a.toFloat? = some x := by
  cases a <;> first | exact ⟨_, rfl⟩ | cases h

theorem order_ints {m n : Int64} (ha : a.toInt? = some m) (hb : b.toInt? = some n) :
    a.order b = .ok (Ord.compare m.toInt n.toInt) := by
  unfold order
  split
  · cases ha
  · rw [ha, hb]

theorem order_floats {x y : Float} (ha : a.toFloat? = some x) (hb : b.toFloat? = some y)
    (h : a.toInt? = none ∨ b.toInt? = none) :
    a.order b = (Binary64.order? x y).elim (.error (.type .orderNaN)) .ok := by
  unfold order
  split
  · cases ha
  · split
    · next hm hn => simp [hm, hn] at h
    · rw [ha, hb]
      dsimp only
      cases Binary64.order? x y <;> rfl

theorem looseEq_numbers (ha : a.isNumber) (hb : b.isNumber) :
    a.looseEq b = (match a.order b with | .ok o => o.isEq | .error _ => false) :=
  if_pos (Bool.and_eq_true_iff.2 ⟨ha, hb⟩)

/-- Integers are equal if they are the same. -/
theorem looseEq_ints {m n : Int64} (ha : a.toInt? = some m) (hb : b.toInt? = some n) :
    a.looseEq b = (m == n) := by
  have hna := isNumber_of_toFloat? (toFloat?_of_toInt? ha)
  have hnb := isNumber_of_toFloat? (toFloat?_of_toInt? hb)
  rw [looseEq_numbers hna hnb, order_ints ha hb, Bool.eq_iff_iff, Ordering.isEq_iff_eq_eq,
    Std.LawfulEqCmp.compare_eq_iff_eq, Int64.toInt_inj, beq_iff_eq]

/-- Other numbers are equal if they are the same as doubles. -/
theorem looseEq_floats {x y : Float} (ha : a.toFloat? = some x) (hb : b.toFloat? = some y)
    (h : a.toInt? = none ∨ b.toInt? = none) : a.looseEq b = (x == y) := by
  rw [looseEq_numbers (isNumber_of_toFloat? ha) (isNumber_of_toFloat? hb), order_floats ha hb h,
    ← Binary64.isEq_order?]
  cases Binary64.order? x y <;> rfl

theorem ints_or_not (a b : Value) : (a.toInt? = none ∨ b.toInt? = none) ∨
    ∃ m n, a.toInt? = some m ∧ b.toInt? = some n := by
  cases a.toInt? with
  | none => exact .inl (.inl rfl)
  | some m =>
    cases b.toInt? with
    | none => exact .inl (.inr rfl)
    | some n => exact .inr ⟨m, n, rfl, rfl⟩

/-- All else is equal only to itself. -/
theorem looseEq_others (h : a.isNumber = false ∨ b.isNumber = false) : a.looseEq b ↔ a = b := by
  have hsame : a.looseEq b = a.same b := by
    rw [looseEq, if_neg]
    rcases h with h | h <;> simp [h]
  rw [hsame]
  cases a <;> cases b <;> simp_all [same, isNumber]

/-- Equal numbers are the same integer, or the same as doubles. -/
theorem beq_or_ints {x y : Float} (ha : a.toFloat? = some x) (hb : b.toFloat? = some y)
    (h : a.looseEq b) : x == y ∨ ∃ n, a.toInt? = some n ∧ b.toInt? = some n := by
  rcases ints_or_not a b with hnot | ⟨m, n, hm, hn⟩
  · exact .inl (by rwa [looseEq_floats ha hb hnot] at h)
  · rw [looseEq_ints hm hn, beq_iff_eq] at h
    exact .inr ⟨m, hm, h ▸ hn⟩

/-- Equal values are both numbers or neither is. -/
theorem isNumber_eq (h : a.looseEq b) : a.isNumber = b.isNumber := by
  cases ha : a.isNumber with
  | false => rw [← (looseEq_others (.inl ha)).1 h, ha]
  | true =>
    cases hb : b.isNumber with
    | false => rw [(looseEq_others (.inr hb)).1 h, hb] at ha; cases ha
    | true => rfl

theorem looseEq_self (a : Value) : a.looseEq a ↔ ∀ x, a = .float x → x.isNaN = false := by
  cases a with
  | absent => exact ⟨nofun, fun _ => (looseEq_others (.inl rfl)).2 rfl⟩
  | bool b => exact ⟨nofun, fun _ => (looseEq_ints rfl rfl).trans (beq_self_eq_true _)⟩
  | int n => exact ⟨nofun, fun _ => (looseEq_ints rfl rfl).trans (beq_self_eq_true _)⟩
  | float x =>
    rw [looseEq_floats rfl rfl (.inl rfl), Binary64.beq_self]
    simp
  | str s => exact ⟨nofun, fun _ => (looseEq_others (.inl rfl)).2 rfl⟩

theorem looseEq_symm (h : a.looseEq b) : b.looseEq a := by
  have hnumbers := isNumber_eq h
  cases hb : b.isNumber with
  | false => exact (looseEq_others (.inl hb)).2 ((looseEq_others (.inr hb)).1 h).symm
  | true =>
    obtain ⟨x, hx⟩ := exists_toFloat? (hnumbers.trans hb)
    obtain ⟨y, hy⟩ := exists_toFloat? hb
    rcases ints_or_not a b with hnot | ⟨m, n, hm, hn⟩
    · rw [looseEq_floats hx hy hnot] at h
      rw [looseEq_floats hy hx hnot.symm]
      exact Binary64.beq_symm h
    · rw [looseEq_ints hm hn] at h
      rw [looseEq_ints hn hm]
      exact BEq.symm h

/-- What is the same integer is the same double. -/
theorem eq_of_ints {n : Int64} {x y : Float} (ha : a.toFloat? = some x) (hb : b.toFloat? = some y)
    (hm : a.toInt? = some n) (hn : b.toInt? = some n) : x = y := by
  rw [toFloat?_of_toInt? hm] at ha
  rw [toFloat?_of_toInt? hn, ha] at hb
  exact Option.some.inj hb

/-- Two equal pairs lead from a double to an equal one, if not both of its ends are integers. -/
theorem beq_of_looseEq {x y z : Float} (ha : a.toFloat? = some x) (hb : b.toFloat? = some y)
    (hc : c.toFloat? = some z) (hab : a.looseEq b) (hbc : b.looseEq c)
    (hnot : a.toInt? = none ∨ c.toInt? = none) : x == z := by
  rcases beq_or_ints ha hb hab with hxy | ⟨m, hma, hmb⟩
  · rcases beq_or_ints hb hc hbc with hyz | ⟨n, hnb, hnc⟩
    · exact Binary64.beq_trans hxy hyz
    · rwa [← eq_of_ints hb hc hnb hnc]
  · rcases beq_or_ints hb hc hbc with hyz | ⟨n, hnb, hnc⟩
    · rwa [eq_of_ints ha hb hma hmb]
    · simp [hma, hnc] at hnot

theorem looseEq_trans_iff (hab : a.looseEq b) (hbc : b.looseEq c) :
    a.looseEq c ↔ ∀ m n, a.toInt? = some m → c.toInt? = some n → m = n := by
  cases hb : b.isNumber with
  | false =>
    obtain rfl := (looseEq_others (.inr hb)).1 hab
    obtain rfl := (looseEq_others (.inl hb)).1 hbc
    exact ⟨fun _ m n hm hn => Option.some.inj (hm.symm.trans hn), fun _ => hab⟩
  | true =>
    obtain ⟨x, hx⟩ := exists_toFloat? ((isNumber_eq hab).trans hb)
    obtain ⟨y, hy⟩ := exists_toFloat? hb
    obtain ⟨z, hz⟩ := exists_toFloat? ((isNumber_eq hbc).symm.trans hb)
    rcases ints_or_not a c with hnot | ⟨m, n, hm, hn⟩
    · rw [looseEq_floats hx hz hnot]
      refine ⟨fun _ m n hm hn => ?_, fun _ => beq_of_looseEq hx hy hz hab hbc hnot⟩
      simp [hm, hn] at hnot
    · rw [looseEq_ints hm hn, beq_iff_eq]
      refine ⟨fun heq m' n' hm' hn' => ?_, fun h => h m n hm hn⟩
      rw [← Option.some.inj (hm.symm.trans hm'), ← Option.some.inj (hn.symm.trans hn'), heq]

/-- Equality is reflexive but for NaN, it is symmetric, and it is passed on but between two integers
that differ, booleans counted as 0 and 1. -/
theorem looseEq_laws (a b c : Value) :
    (a.looseEq a ↔ ∀ x, a = .float x → x.isNaN = false) ∧
      (a.looseEq b → b.looseEq a) ∧
      (a.looseEq b → b.looseEq c →
        (a.looseEq c ↔ ∀ m n, a.toInt? = some m → c.toInt? = some n → m = n)) :=
  ⟨looseEq_self a, looseEq_symm, looseEq_trans_iff⟩

/-- A boolean, a double and an integer that are one. -/
theorem looseEq_laws_of_one :
    (Value.bool true).looseEq (.float 1) ∧ (Value.float 1).looseEq (.int 1) ∧
      ((Value.bool true).looseEq (.int 1) ↔
        ∀ m n, (Value.bool true).toInt? = some m → (Value.int 1).toInt? = some n → m = n) := by
  have hab : (Value.bool true).looseEq (.float 1) := by decide +kernel
  have hbc : (Value.float 1).looseEq (.int 1) := by decide +kernel
  exact ⟨hab, hbc, (looseEq_laws _ _ _).2.2 hab hbc⟩

/-- The integer behind `2 ^ 53` has no double of its own. -/
theorem looseEq_not_trans :
    (Value.int 9007199254740993).looseEq (.float 9007199254740992) ∧
      (Value.float 9007199254740992).looseEq (.int 9007199254740992) ∧
      ¬(Value.int 9007199254740993).looseEq (.int 9007199254740992) := by
  decide +kernel

end Value

end Script

end CalcDoc
