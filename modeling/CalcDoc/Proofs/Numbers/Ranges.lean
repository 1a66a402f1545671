import CalcDoc.Script.Value

/-!
# The range of the integers

An integer of the language is an integer from `-2 ^ 63` to `2 ^ 63 - 1`, and each of these is one.

- `InRange`: the range.
- `int64?_of_range`, `int64?_eq_none_iff`, `int64?_toInt`: what is made an integer of the language.
- `exists_toInt`: the integers in range are those of the language.
-/

namespace CalcDoc.Script

/-- The range of the integers of the language. -/
abbrev InRange (n : Int) : Prop :=
  -0x8000000000000000 ≤ n ∧ n < 0x8000000000000000

theorem toInt_range (a : Int64) : InRange a.toInt :=
  ⟨a.le_toInt, a.toInt_lt⟩

section Range

variable {n : Int}

theorem int64?_of_range (h : InRange n) : int64? n = some (Int64.ofInt n) :=
  if_pos h

theorem int64?_eq_none_iff : int64? n = none ↔ ¬ InRange n := by
  unfold int64?
  split
  · next h => simp [h]
  · next h => simpa using h

theorem toInt_of_int64? {k : Int64} (h : int64? n = some k) : k.toInt = n ∧ InRange n := by
  unfold int64? at h
  split at h
  · next hn =>
    obtain rfl := Option.some.inj h
    exact ⟨Int64.toInt_ofInt_of_le hn.1 hn.2, hn⟩
  · cases h

theorem exists_toInt (h : InRange n) : ∃ k : Int64, k.toInt = n :=
  ⟨Int64.ofInt n, Int64.toInt_ofInt_of_le h.1 h.2⟩

end Range

theorem int64?_toInt (n : Int64) : int64? n.toInt = some n := by
  rw [int64?_of_range (toInt_range n), Int64.ofInt_toInt]

end CalcDoc.Script
