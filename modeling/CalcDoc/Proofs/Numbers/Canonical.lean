import CalcDoc.Number.Binary64
import Mathlib

/-!
# The form of doubles

A finite double is a mantissa of 53 bits times a power of two. The highest bit is set but for the
numbers at the lowest exponent, so there is one form of each number.

- `Canonical`: the mantissas and exponents that doubles have.
- `canonical_of_unpack`: every finite double has this form.
- `unpack_pack`: what has this form is a double.
- `unpack_neg`: the other sign of a double.
-/

namespace CalcDoc.Binary64

open Float.Model (UnpackedFloat Format)
open Float.Model.UnpackedFloat

/-- The mantissas and exponents that doubles have. -/
structure Canonical (m : Nat) (e : Int) : Prop where
  lt : m < 2 ^ 53
  low : -1074 ≤ e
  high : e ≤ 971
  full : 2 ^ 52 ≤ m ∨ e = -1074

theorem exponentBias_binary64 : Format.binary64.exponentBias = 1023 := rfl

/-- The bit that is not stored. -/
theorem toNat_implicit (v : BitVec 52) : (1#1 ++ v).toNat = 2 ^ 52 + v.toNat := by
  rw [BitVec.toNat_append, ← Nat.shiftLeft_add_eq_or_of_lt v.isLt]
  rfl

section Packing

variable {s : Sign} {m : Nat} {e : Int} {hm : 0 < m}

/-- Every finite double has this form. -/
theorem canonical_of_unpack {x : Float.Model} (h : x.unpack = .finite s m e hm) :
    Canonical m e := by
  have hexponent : (@unpackExponent .binary64 x.toBits.toBitVec).toNat < 2 ^ 11 := BitVec.isLt _
  have hmantissa : (@unpackMantissa .binary64 x.toBits.toBitVec).toNat < 2 ^ 52 := BitVec.isLt _
  unfold Float.Model.unpack UnpackedFloat.unpack at h
  dsimp only at h
  rw [exponentBias_binary64] at h
  split at h
  · split at h <;> cases h
  · next hlast =>
    have hne : (@unpackExponent .binary64 x.toBits.toBitVec).toNat ≠ 2047 :=
      fun hnat => hlast (BitVec.eq_of_toNat_eq hnat)
    split at h
    · next hzero =>
      have hnat : (@unpackExponent .binary64 x.toBits.toBitVec).toNat = 0 :=
        congrArg BitVec.toNat hzero
      split at h
      · cases h
      · obtain ⟨-, rfl, rfl⟩ := UnpackedFloat.finite.inj h
        exact ⟨by omega, by omega, by omega, .inr (by omega)⟩
    · next hzero =>
      have hnat : (@unpackExponent .binary64 x.toBits.toBitVec).toNat ≠ 0 :=
        fun hnat => hzero (BitVec.eq_of_toNat_eq hnat)
      obtain ⟨-, rfl, rfl⟩ := UnpackedFloat.finite.inj h
      have hfull := toNat_implicit (@unpackMantissa .binary64 x.toBits.toBitVec)
      exact ⟨by omega, by omega, by omega, .inl (by omega)⟩

theorem unpackSign_packComponents {spec : Format} (exponent : BitVec spec.exponentBits)
    (mantissa : BitVec spec.mantissaBitsWithoutImplicit) :
    unpackSign (packComponents spec s exponent mantissa) = s.toBitVec := by
  apply BitVec.eq_of_getLsbD_eq
  intro i hi
  obtain rfl : i = 0 := by omega
  simp [unpackSign, packComponents, BitVec.getLsbD_append, BitVec.getElem_append]

theorem ofBitVec_toBitVec (s : Sign) : Sign.ofBitVec s.toBitVec = s := by
  cases s <;> rfl

theorem finite_congr {m' : Nat} {e' : Int} {hm' : 0 < m'} (hmantissa : m = m')
    (hexponent : e = e') : UnpackedFloat.finite s m e hm = .finite s m' e' hm' := by
  subst hmantissa hexponent
  rfl

/-- A double of full precision, from its fields. -/
theorem unpack_normal {exponent : BitVec 11} {mantissa : BitVec 52} (hinfinite : exponent ≠ -1#11)
    (hzero : exponent ≠ 0#11) (hmantissa : 2 ^ 52 + mantissa.toNat = m)
    (hexponent : (exponent.toNat : Int) - 1075 = e) :
    UnpackedFloat.unpack .binary64 (packComponents .binary64 s exponent mantissa) =
      .finite s m e hm := by
  unfold UnpackedFloat.unpack
  simp only [unpackExponent_packComponents, unpackMantissa_packComponents,
    unpackSign_packComponents, ofBitVec_toBitVec, hinfinite, hzero, if_false]
  exact finite_congr ((toNat_implicit mantissa).trans hmantissa) hexponent

/-- A smaller one. -/
theorem unpack_subnormal {mantissa : BitVec 52} (hmantissa : mantissa.toNat = m) :
    UnpackedFloat.unpack .binary64 (packComponents .binary64 s 0#11 mantissa) =
      .finite s m (-1074) hm := by
  have hne : mantissa ≠ 0#52 := by
    rintro rfl
    exact absurd hmantissa (Nat.ne_of_lt hm)
  unfold UnpackedFloat.unpack
  simp only [unpackExponent_packComponents, unpackMantissa_packComponents,
    unpackSign_packComponents, ofBitVec_toBitVec, hne]
  exact finite_congr hmantissa rfl

/-- What has the form of a double is one. -/
theorem unpack_pack (h : Canonical m e) :
    (Float.Model.pack (.finite s m e hm)).unpack = .finite s m e hm := by
  obtain ⟨hlt, hlow, hhigh, hfull⟩ := h
  obtain ⟨b, hb⟩ := Int.eq_ofNat_of_zero_le (show 0 ≤ e + 1075 by omega)
  have hbits : (e + Format.binary64.exponentBias + (52 : Nat)).toNat = b := by
    rw [exponentBias_binary64]
    omega
  have hnat : (BitVec.ofNat 11 b).toNat = b := Nat.mod_eq_of_lt (by omega)
  show UnpackedFloat.unpack .binary64 (UnpackedFloat.pack .binary64 (.finite s m e hm)) = _
  rw [UnpackedFloat.pack]
  dsimp only
  rw [hbits, if_neg (show ¬ 2 ^ 11 ≤ b + 1 by omega)]
  by_cases hhalf : 2 ^ 52 ≤ m
  · have hlog : m.log2 + 1 = Format.binary64.mantissaBits :=
      congrArg (· + 1) ((Nat.log2_eq_iff (Nat.ne_of_gt hm)).2 ⟨hhalf, hlt⟩)
    rw [if_pos hlog]
    refine unpack_normal (fun heq => ?_) (fun heq => ?_) ?_ ?_
    · rw [heq] at hnat
      exact absurd hnat (by show ¬ 2047 = b; omega)
    · rw [heq] at hnat
      exact absurd hnat (by show ¬ 0 = b; omega)
    · show 2 ^ 52 + m % 2 ^ 52 = m
      omega
    · rw [hnat]
      omega
  · have hlog : m.log2 + 1 ≠ Format.binary64.mantissaBits := fun hlog =>
      hhalf ((Nat.log2_eq_iff (Nat.ne_of_gt hm)).1 (Nat.succ.inj hlog)).1
    rw [if_neg hlog]
    obtain rfl : e = -1074 := by omega
    exact unpack_subnormal (Nat.mod_eq_of_lt (by omega))

end Packing

/-- The other sign of a double. -/
theorem unpack_neg (x : Float) : (-x).toModel.unpack = x.toModel.unpack.neg := by
  show (Float.Model.pack x.toModel.unpack.neg).unpack = _
  cases h : x.toModel.unpack with
  | notANumber => rfl
  | infinity s => cases s <;> rfl
  | zero s => cases s <;> rfl
  | finite s m e hm => exact unpack_pack (canonical_of_unpack h)

end CalcDoc.Binary64
