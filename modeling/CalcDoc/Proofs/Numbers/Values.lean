import CalcDoc.Proofs.Numbers.Canonical

/-!
# Doubles as rational numbers

A finite double stands for a rational number, and the infinities for what is beyond all of them.
Doubles are ordered as these are: the form of doubles is such that the greater exponent makes the
greater number.

- `Binary64.value?`: the number that a finite double stands for.
- `Binary64.extended?`: the same with two infinities; only NaN stands for nothing.
- `Binary64.order?_eq`: the order of two doubles is that of what they stand for.
-/

namespace CalcDoc.Binary64

open Float.Model (UnpackedFloat)
open Float.Model.UnpackedFloat

/-- The number of an unpacked double. -/
def valueOf? : UnpackedFloat → Option ℚ
  | .zero _ => some 0
  | .finite s m e _ => some (s.apply m * 2 ^ e)
  | .infinity _ | .notANumber => none

/-- The number that a finite double stands for; none for an infinity and for NaN. -/
def value? (x : Float) : Option ℚ :=
  valueOf? x.toModel.unpack

/-- The rational numbers, and what is below and above all of them. -/
abbrev Extended := WithBot (WithTop ℚ)

/-- A number between the infinities. -/
def Extended.ofRat (q : ℚ) : Extended :=
  ((q : WithTop ℚ) : WithBot (WithTop ℚ))

/-- The same with the infinities. -/
def extendedOf? : UnpackedFloat → Option Extended
  | .infinity .negative => some ⊥
  | .infinity .positive => some (⊤ : WithTop ℚ)
  | u => (valueOf? u).map Extended.ofRat

/-- What a double stands for; nothing for NaN. -/
def extended? (x : Float) : Option Extended :=
  extendedOf? x.toModel.unpack

theorem extended?_of_value? {x : Float} {q : ℚ} (h : value? x = some q) :
    extended? x = some (Extended.ofRat q) := by
  unfold value? at h
  unfold extended?
  cases hu : x.toModel.unpack with
  | infinity s => rw [hu] at h; cases h
  | notANumber => rw [hu] at h; cases h
  | zero s => rw [hu] at h; exact congrArg (Option.map Extended.ofRat) h
  | finite s m e hm => rw [hu] at h; exact congrArg (Option.map Extended.ofRat) h

theorem Extended.strictMono_ofRat : StrictMono Extended.ofRat :=
  WithBot.coe_strictMono.comp WithTop.coe_strictMono

/-! ## The order of doubles -/

/-- An order that agrees with a linear one is that one. -/
theorem eq_compare {α : Type} [LinearOrder α] {o : Ordering} {p q : α} (hlt : o = .lt → p < q)
    (heq : o = .eq → p = q) (hgt : o = .gt → q < p) : o = compare p q := by
  cases o with
  | lt => exact (compare_lt_iff_lt.2 (hlt rfl)).symm
  | eq => exact (compare_eq_iff_eq.2 (heq rfl)).symm
  | gt => exact (compare_gt_iff_gt.2 (hgt rfl)).symm

section Finite

variable {m m' : Nat} {e e' : Int}

/-- Of two doubles the one with the greater exponent is greater. -/
theorem scaled_lt_of_exponent_lt (h : Canonical m e) (h' : Canonical m' e') (hlt : e < e') :
    (m : ℚ) * 2 ^ e < m' * 2 ^ e' := by
  have hlow := h.low
  have hfull : 2 ^ 52 ≤ m' := h'.full.resolve_right fun heq => by omega
  calc (m : ℚ) * 2 ^ e < 2 ^ 53 * 2 ^ e := by
        have hlt : (m : ℚ) < 2 ^ 53 := by exact_mod_cast h.lt
        gcongr
    _ = 2 ^ 52 * 2 ^ (e + 1) := by rw [zpow_add_one₀ two_ne_zero]; ring
    _ ≤ 2 ^ 52 * 2 ^ e' := by
        gcongr
        · exact one_le_two
        · exact hlt
    _ ≤ m' * 2 ^ e' := by
        have hle : (2 : ℚ) ^ 52 ≤ m' := by exact_mod_cast hfull
        gcongr

/-- With one exponent, the mantissas decide. -/
theorem compare_scaled (h : Canonical m e) (h' : Canonical m' e') :
    (compare e e').then (compare m m') = compare ((m : ℚ) * 2 ^ e) (m' * 2 ^ e') := by
  rcases lt_trichotomy e e' with hlt | rfl | hgt
  · rw [compare_lt_iff_lt.2 hlt, compare_lt_iff_lt.2 (scaled_lt_of_exponent_lt h h' hlt)]
    rfl
  · have hpos : (0 : ℚ) < 2 ^ e := zpow_pos two_pos e
    rw [compare_eq_iff_eq.2 rfl]
    refine eq_compare (fun hlt => ?_) (fun heq => ?_) (fun hgt => ?_)
    · have hlt : m < m' := compare_lt_iff_lt.1 hlt
      gcongr
    · rw [compare_eq_iff_eq.1 heq]
    · have hlt : m' < m := compare_gt_iff_gt.1 hgt
      gcongr
  · rw [compare_gt_iff_gt.2 hgt, compare_gt_iff_gt.2 (scaled_lt_of_exponent_lt h' h hgt)]
    rfl

end Finite

theorem compare_neg (p q : ℚ) : (compare p q).swap = compare (-p) (-q) := by
  refine eq_compare (fun hlt => ?_) (fun heq => ?_) (fun hgt => ?_)
  · exact neg_lt_neg (compare_gt_iff_gt.1 (Ordering.swap_eq_lt.1 hlt))
  · rw [compare_eq_iff_eq.1 (Ordering.swap_eq_eq.1 heq)]
  · exact neg_lt_neg (compare_lt_iff_lt.1 (Ordering.swap_eq_gt.1 hgt))

theorem cases_of_valueOf? {u : UnpackedFloat} {q : ℚ} (h : valueOf? u = some q) :
    (∃ s, u = .zero s ∧ q = 0) ∨
      ∃ s m e hm, u = .finite s m e hm ∧ q = s.apply m * 2 ^ e := by
  cases u with
  | infinity s => cases h
  | notANumber => cases h
  | zero s => exact .inl ⟨s, rfl, (Option.some.inj h).symm⟩
  | finite s m e hm => exact .inr ⟨s, m, e, hm, rfl, (Option.some.inj h).symm⟩

theorem positive_value {m : Nat} (hm : 0 < m) (e : Int) : (0 : ℚ) < Sign.positive.apply m * 2 ^ e :=
  mul_pos (Int.cast_pos.2 (Int.natCast_pos.2 hm)) (zpow_pos two_pos e)

theorem negative_value (m : Nat) (e : Int) :
    (Sign.negative.apply m * 2 ^ e : ℚ) = -(Sign.positive.apply m * 2 ^ e) := by
  simp [Sign.apply]

theorem negative_value_lt {m : Nat} (hm : 0 < m) (e : Int) :
    (Sign.negative.apply m * 2 ^ e : ℚ) < 0 := by
  rw [negative_value]
  exact neg_neg_of_pos (positive_value hm e)

/-- Finite doubles are ordered as their numbers. -/
theorem compare_values {x y : Float.Model} {p q : ℚ} (hp : valueOf? x.unpack = some p)
    (hq : valueOf? y.unpack = some q) : x.unpack.compare y.unpack = some (compare p q) := by
  rcases cases_of_valueOf? hp with ⟨s, hx, rfl⟩ | ⟨s, m, e, hm, hx, rfl⟩
  · rcases cases_of_valueOf? hq with ⟨s', hy, rfl⟩ | ⟨s', m', e', hm', hy, rfl⟩
    · rw [hx, hy, compare_eq_iff_eq.2 rfl]
      rfl
    · rw [hx, hy]
      cases s' with
      | positive => rw [compare_lt_iff_lt.2 (positive_value hm' e')]; rfl
      | negative => rw [compare_gt_iff_gt.2 (negative_value_lt hm' e')]; rfl
  · rcases cases_of_valueOf? hq with ⟨s', hy, rfl⟩ | ⟨s', m', e', hm', hy, rfl⟩
    · rw [hx, hy]
      cases s with
      | positive => rw [compare_gt_iff_gt.2 (positive_value hm e)]; rfl
      | negative => rw [compare_lt_iff_lt.2 (negative_value_lt hm e)]; rfl
    · have hscaled := compare_scaled (canonical_of_unpack hx) (canonical_of_unpack hy)
      rw [hx, hy]
      cases s with
      | positive =>
        cases s' with
        | positive => exact congrArg some hscaled
        | negative =>
          have hlt := (negative_value_lt hm' e').trans (positive_value hm e)
          rw [compare_gt_iff_gt.2 hlt]
          rfl
      | negative =>
        cases s' with
        | positive =>
          have hlt := (negative_value_lt hm e).trans (positive_value hm' e')
          rw [compare_lt_iff_lt.2 hlt]
          rfl
        | negative =>
          rw [negative_value, negative_value, ← compare_neg]
          exact congrArg (fun o => some o.swap) hscaled

theorem compare_ofRat (p q : ℚ) : compare (Extended.ofRat p) (Extended.ofRat q) = compare p q :=
  (eq_compare (fun h => Extended.strictMono_ofRat (compare_lt_iff_lt.1 h))
    (fun h => congrArg Extended.ofRat (compare_eq_iff_eq.1 h))
    fun h => Extended.strictMono_ofRat (compare_gt_iff_gt.1 h)).symm

theorem cases_of_extendedOf? {u : UnpackedFloat} {p : Extended} (h : extendedOf? u = some p) :
    (u = .infinity .negative ∧ p = ⊥) ∨ (u = .infinity .positive ∧ p = (⊤ : WithTop ℚ)) ∨
      ∃ q, valueOf? u = some q ∧ p = Extended.ofRat q := by
  cases u with
  | infinity s =>
    cases s with
    | negative => exact .inl ⟨rfl, (Option.some.inj h).symm⟩
    | positive => exact .inr (.inl ⟨rfl, (Option.some.inj h).symm⟩)
  | notANumber => cases h
  | zero s => exact .inr (.inr ⟨0, rfl, (Option.some.inj h).symm⟩)
  | finite s m e hm => exact .inr (.inr ⟨_, rfl, (Option.some.inj h).symm⟩)

/-- The infinities are beyond all numbers. -/
theorem bot_lt_ofRat (q : ℚ) : (⊥ : Extended) < Extended.ofRat q :=
  WithBot.bot_lt_coe _

theorem ofRat_lt_top (q : ℚ) : Extended.ofRat q < ((⊤ : WithTop ℚ) : Extended) :=
  WithBot.coe_lt_coe.2 (WithTop.coe_lt_top q)

/-- So are the infinities beyond all finite doubles. -/
theorem compare_infinity {u : UnpackedFloat} {q : ℚ} (h : valueOf? u = some q) :
    ((UnpackedFloat.infinity .negative).compare u = some .lt ∧
      u.compare (.infinity .negative) = some .gt) ∧
    (UnpackedFloat.infinity .positive).compare u = some .gt ∧
      u.compare (.infinity .positive) = some .lt := by
  rcases cases_of_valueOf? h with ⟨s, rfl, -⟩ | ⟨s, m, e, hm, rfl, -⟩
  · cases s <;> exact ⟨⟨rfl, rfl⟩, rfl, rfl⟩
  · cases s <;> exact ⟨⟨rfl, rfl⟩, rfl, rfl⟩

/-- All doubles but NaN are ordered as what they stand for. -/
theorem compare_extended {x y : Float.Model} {p q : Extended} (hp : extendedOf? x.unpack = some p)
    (hq : extendedOf? y.unpack = some q) : x.unpack.compare y.unpack = some (compare p q) := by
  rcases cases_of_extendedOf? hp with ⟨hx, rfl⟩ | ⟨hx, rfl⟩ | ⟨a, ha, rfl⟩
  · rcases cases_of_extendedOf? hq with ⟨hy, rfl⟩ | ⟨hy, rfl⟩ | ⟨b, hb, rfl⟩
    · rw [hx, hy, compare_eq_iff_eq.2 rfl]
      rfl
    · rw [hx, hy, compare_lt_iff_lt.2 (WithBot.bot_lt_coe _)]
      rfl
    · rw [hx, compare_lt_iff_lt.2 (bot_lt_ofRat b), (compare_infinity hb).1.1]
  · rcases cases_of_extendedOf? hq with ⟨hy, rfl⟩ | ⟨hy, rfl⟩ | ⟨b, hb, rfl⟩
    · rw [hx, hy, compare_gt_iff_gt.2 (WithBot.bot_lt_coe _)]
      rfl
    · rw [hx, hy, compare_eq_iff_eq.2 rfl]
      rfl
    · rw [hx, compare_gt_iff_gt.2 (ofRat_lt_top b), (compare_infinity hb).2.1]
  · rcases cases_of_extendedOf? hq with ⟨hy, rfl⟩ | ⟨hy, rfl⟩ | ⟨b, hb, rfl⟩
    · rw [hy, compare_gt_iff_gt.2 (bot_lt_ofRat a), (compare_infinity ha).1.2]
    · rw [hy, compare_lt_iff_lt.2 (ofRat_lt_top a), (compare_infinity ha).2.2]
    · rw [compare_values ha hb, compare_ofRat]

theorem lt_iff_compare {x y : Float} :
    x < y ↔ x.toModel.unpack.compare y.toModel.unpack = some .lt := by
  show decide (x.toModel < y.toModel) = true ↔ _
  rw [decide_eq_true_iff]
  exact beq_iff_eq

theorem beq_iff_compare {x y : Float} :
    x == y ↔ x.toModel.unpack.compare y.toModel.unpack = some .eq := by
  show (x.toModel.unpack.compare y.toModel.unpack == some .eq) = true ↔ _
  exact beq_iff_eq

/-- The order of two doubles is that of what they stand for. -/
theorem order?_eq {x y : Float} {p q : Extended} (hp : extended? x = some p)
    (hq : extended? y = some q) : order? x y = some (compare p q) := by
  rw [order?]
  simp only [lt_iff_compare, beq_iff_compare, compare_extended hp hq, compare_extended hq hp,
    Option.some.injEq]
  rcases lt_trichotomy p q with hlt | heq | hgt
  · rw [compare_lt_iff_lt.2 hlt, if_pos rfl]
  · rw [compare_eq_iff_eq.2 heq, if_neg nofun, if_pos rfl]
  · rw [compare_gt_iff_gt.2 hgt, compare_lt_iff_lt.2 hgt, if_neg nofun, if_neg nofun, if_pos rfl]

theorem isNaN_iff {x : Float} : x.isNaN ↔ x.toModel.unpack = .notANumber := by
  show x.toModel.unpack.isNaN = true ↔ _
  cases x.toModel.unpack with
  | notANumber => exact ⟨fun _ => rfl, fun _ => rfl⟩
  | infinity s => exact ⟨nofun, nofun⟩
  | zero s => exact ⟨nofun, nofun⟩
  | finite s m e hm => exact ⟨nofun, nofun⟩

theorem compare_notANumber (u : UnpackedFloat) :
    UnpackedFloat.notANumber.compare u = none ∧ u.compare .notANumber = none := by
  cases u <;> exact ⟨rfl, rfl⟩

/-- NaN is in no order. -/
theorem order?_eq_none {x y : Float} (h : x.isNaN ∨ y.isNaN) : order? x y = none := by
  have hnone : x.toModel.unpack.compare y.toModel.unpack = none ∧
      y.toModel.unpack.compare x.toModel.unpack = none := by
    rcases h with h | h
    · rw [isNaN_iff.1 h]
      exact compare_notANumber _
    · rw [isNaN_iff.1 h]
      exact (compare_notANumber _).symm
  rw [order?]
  simp only [lt_iff_compare, beq_iff_compare, hnone.1, hnone.2]
  rw [if_neg nofun, if_neg nofun, if_neg nofun]

/-- Every other double stands for something. -/
theorem exists_extended?_iff {x : Float} : (∃ p, extended? x = some p) ↔ x.isNaN = false := by
  rw [Bool.eq_false_iff, Ne, isNaN_iff, extended?]
  cases x.toModel.unpack with
  | notANumber => exact ⟨nofun, fun h => absurd rfl h⟩
  | infinity s => cases s <;> exact ⟨fun _ => nofun, fun _ => ⟨_, rfl⟩⟩
  | zero s => exact ⟨fun _ => nofun, fun _ => ⟨_, rfl⟩⟩
  | finite s m e hm => exact ⟨fun _ => nofun, fun _ => ⟨_, rfl⟩⟩

theorem exists_extended?_of_order? {x y : Float} {o : Ordering} (h : order? x y = some o) :
    ∃ p q, extended? x = some p ∧ extended? y = some q ∧ o = compare p q := by
  have hx : x.isNaN = false := by
    refine Bool.eq_false_iff.2 fun hx => ?_
    rw [order?_eq_none (.inl hx)] at h
    cases h
  have hy : y.isNaN = false := by
    refine Bool.eq_false_iff.2 fun hy => ?_
    rw [order?_eq_none (.inr hy)] at h
    cases h
  obtain ⟨p, hp⟩ := exists_extended?_iff.2 hx
  obtain ⟨q, hq⟩ := exists_extended?_iff.2 hy
  rw [order?_eq hp hq] at h
  exact ⟨p, q, hp, hq, (Option.some.inj h).symm⟩

end CalcDoc.Binary64
