import CalcDoc.Proofs.Characters
import CalcDoc.Proofs.Numbers.Ranges
import CalcDoc.Proofs.Numerals
import CalcDoc.Proofs.Trimming
import CalcDoc.Script.Builtin

/-!
# Integers and their texts

The text of an integer is read as this integer again, also with blanks around it. What is read
otherwise is a numeral with a plus sign, with zeros in front, or the zero with a minus sign.

- `IsNumeral`: the texts that stand for an integer.
- `readInteger?_eq_some`: just these are read.
- `isNumeral_toString`: the text of an integer is one of them.
- `intValue_str_eq_ok`: the value of a string as an integer.
- `Builtin.int_str`: the conversion of an integer to a string and back, and which strings can be
  converted at all.
-/

namespace CalcDoc

/-- Whether a text is an optional sign and one or more digits, which stand for an integer. -/
inductive IsNumeral : Text → Int → Prop where
  | plain {ds : Text} (hne : ds ≠ []) (hds : ∀ c ∈ ds, c.isDigit) :
    IsNumeral ds (Nat.ofDigitChars 10 ds 0)
  | plus {ds : Text} (hne : ds ≠ []) (hds : ∀ c ∈ ds, c.isDigit) :
    IsNumeral ('+' :: ds) (Nat.ofDigitChars 10 ds 0)
  | minus {ds : Text} (hne : ds ≠ []) (hds : ∀ c ∈ ds, c.isDigit) :
    IsNumeral ('-' :: ds) (-Nat.ofDigitChars 10 ds 0)

variable {t ds : Text} {n : Int}

/-- There are no blanks in a numeral. -/
theorem IsNumeral.isBlank_eq_false (h : IsNumeral t n) : ∀ c ∈ t, isBlank c = false := by
  have hdigits : ∀ {ds : Text}, (∀ c ∈ ds, c.isDigit) → ∀ c ∈ ds, isBlank c = false :=
    fun hds c hc => isBlank_of_isDigit (hds c hc)
  cases h with
  | plain _ hds => exact hdigits hds
  | plus _ hds => exact List.forall_mem_cons.2 ⟨by decide, hdigits hds⟩
  | minus _ hds => exact List.forall_mem_cons.2 ⟨by decide, hdigits hds⟩

theorem readInteger?_of_split {b : Bool} (hsplit : splitSign t = (b, ds)) (hne : ds ≠ [])
    (hds : ∀ c ∈ ds, c.isDigit) :
    readInteger? t = some (if b then -(digitsValue ds : Int) else digitsValue ds) := by
  unfold readInteger?
  rw [hsplit]
  exact if_pos ⟨hne, List.all_eq_true.2 hds⟩

/-- A sign is split off, and nothing else. -/
theorem splitSign_cases (t : Text) : (∃ ds, t = '-' :: ds ∧ splitSign t = (true, ds)) ∨
    (∃ ds, t = '+' :: ds ∧ splitSign t = (false, ds)) ∨ splitSign t = (false, t) := by
  unfold splitSign
  split
  · exact .inl ⟨_, rfl, rfl⟩
  · exact .inr (.inl ⟨_, rfl, rfl⟩)
  · exact .inr (.inr rfl)

theorem splitSign_digits (hds : ∀ c ∈ ds, c.isDigit) : splitSign ds = (false, ds) := by
  rcases splitSign_cases ds with ⟨ds', rfl, -⟩ | ⟨ds', rfl, -⟩ | h
  · exact absurd (hds '-' List.mem_cons_self) (by decide)
  · exact absurd (hds '+' List.mem_cons_self) (by decide)
  · exact h

/-- Just the numerals are read. -/
theorem readInteger?_eq_some : readInteger? t = some n ↔ IsNumeral t n := by
  constructor
  · intro h
    rcases hsplit : splitSign t with ⟨negative, ds⟩
    unfold readInteger? at h
    rw [hsplit] at h
    dsimp only at h
    split at h
    · next hds =>
      obtain rfl := Option.some.inj h
      obtain ⟨hne, hall⟩ := hds
      have hdigits := List.all_eq_true.1 hall
      rcases splitSign_cases t with ⟨ds', rfl, heq⟩ | ⟨ds', rfl, heq⟩ | heq
      · obtain ⟨rfl, rfl⟩ := Prod.mk.inj (heq.symm.trans hsplit)
        exact .minus hne hdigits
      · obtain ⟨rfl, rfl⟩ := Prod.mk.inj (heq.symm.trans hsplit)
        exact .plus hne hdigits
      · obtain ⟨rfl, rfl⟩ := Prod.mk.inj (heq.symm.trans hsplit)
        exact .plain hne hdigits
    · cases h
  · intro h
    cases h with
    | plain hne hds => exact readInteger?_of_split (splitSign_digits hds) hne hds
    | plus hne hds => exact readInteger?_of_split (b := false) rfl hne hds
    | minus hne hds => exact readInteger?_of_split (b := true) rfl hne hds

/-- The text of an integer is a numeral. -/
theorem isNumeral_toString (n : Int) : IsNumeral (toString n).toList n := by
  have hne : Nat.toDigits 10 n.natAbs ≠ [] := Nat.toDigits_ne_nil
  have hdigits : ∀ c ∈ Nat.toDigits 10 n.natAbs, c.isDigit := fun c hc =>
    Nat.isDigit_of_mem_toDigits (by decide) (by decide) hc
  have hvalue : Nat.ofDigitChars 10 (Nat.toDigits 10 n.natAbs) 0 = n.natAbs :=
    Nat.ofDigitChars_ten_toDigits
  rw [toList_toString_int]
  split
  · have h := IsNumeral.minus hne hdigits
    rwa [hvalue, show -(n.natAbs : Int) = n by omega] at h
  · have h := IsNumeral.plain hne hdigits
    rwa [hvalue, show (n.natAbs : Int) = n by omega] at h

namespace Script

variable {s : String}

/-- A string is an integer if it is a numeral in range, but for blanks at its ends. -/
theorem intValue_str_eq_ok {v : Value} : intValue (.str s) = .ok v ↔
    ∃ k, v = .int k ∧ ∃ t, Trims s.toList t ∧ IsNumeral t k.toInt := by
  have htrim : ∀ n, readInteger? (Text.trim s.toList) = some n ↔
      ∃ t, Trims s.toList t ∧ IsNumeral t n := by
    intro n
    rw [readInteger?_eq_some]
    refine ⟨fun h => ⟨_, Trims.trim _, h⟩, fun ⟨t, ht, h⟩ => ?_⟩
    rwa [ht.trim_eq h.isBlank_eq_false]
  have hread : ∀ k, (readInteger? (Text.trim s.toList)).bind int64? = some k ↔
      ∃ t, Trims s.toList t ∧ IsNumeral t k.toInt := by
    intro k
    rw [Option.bind_eq_some_iff, ← htrim]
    constructor
    · rintro ⟨n, hn, hk⟩
      rw [hn, (toInt_of_int64? hk).1]
    · exact fun h => ⟨_, h, int64?_toInt k⟩
  rw [intValue]
  cases hresult : (readInteger? (Text.trim s.toList)).bind int64? with
  | none =>
    refine ⟨nofun, ?_⟩
    rintro ⟨k, -, hk⟩
    rw [(hread k).2 hk] at hresult
    cases hresult
  | some k =>
    constructor
    · intro h
      exact ⟨k, (Except.ok.inj h).symm, (hread k).1 hresult⟩
    · rintro ⟨k', rfl, hk'⟩
      rw [(hread k').2 hk'] at hresult
      exact congrArg _ (congrArg _ (Option.some.inj hresult).symm)

/-- An integer that is made a string is read as the same integer again, also with blanks around it.
Just the strings are read that are numerals in range but for blanks at their ends. -/
theorem Builtin.int_str :
    (∀ (n : Int64) (u w : String), (∀ c ∈ u.toList, isBlank c) → (∀ c ∈ w.toList, isBlank c) →
      ∃ t, Builtin.str.apply [.int n] = .ok (.str t) ∧
        Builtin.int.apply [.str (u ++ t ++ w)] = .ok (.int n)) ∧
    ∀ s : String,
      (∀ n, Builtin.int.apply [.str s] = .ok (.int n) ↔
        ∃ t, Trims s.toList t ∧ IsNumeral t n.toInt) ∧
      ((∃ v, Builtin.int.apply [.str s] = .ok v) ↔
        ∃ t n, Trims s.toList t ∧ IsNumeral t n ∧ InRange n) := by
  refine ⟨fun n u w hu hw => ⟨toString n.toInt, rfl, ?_⟩, fun s => ⟨fun n => ?_, ?_⟩⟩
  · refine intValue_str_eq_ok.2 ⟨n, rfl, _, ?_, isNumeral_toString n.toInt⟩
    exact ⟨u.toList, w.toList, by simp, hu, hw⟩
  · refine intValue_str_eq_ok.trans ⟨?_, fun h => ⟨n, rfl, h⟩⟩
    rintro ⟨k, hk, h⟩
    rwa [Value.int.inj hk]
  · constructor
    · rintro ⟨v, hv⟩
      obtain ⟨n, -, t, ht, hn⟩ := intValue_str_eq_ok.1 hv
      exact ⟨t, n.toInt, ht, hn, toInt_range n⟩
    · rintro ⟨t, n, ht, hn, hrange⟩
      obtain ⟨k, rfl⟩ := exists_toInt hrange
      exact ⟨.int k, intValue_str_eq_ok.2 ⟨k, rfl, t, ht, hn⟩⟩

/-- The lowest integer between an ideographic space and a line feed. -/
theorem Builtin.int_str_lowest :
    let u := "\u3000"
    let w := "\n"
    (∀ c ∈ u.toList, isBlank c) ∧ (∀ c ∈ w.toList, isBlank c) ∧
      ∃ t, Builtin.str.apply [.int Int64.minValue] = .ok (.str t) ∧
        Builtin.int.apply [.str (u ++ t ++ w)] = .ok (.int Int64.minValue) := by
  intro u w
  have hall : u.toList.all isBlank ∧ w.toList.all isBlank := by decide +kernel
  have hu := List.all_eq_true.1 hall.1
  have hw := List.all_eq_true.1 hall.2
  exact ⟨hu, hw, Builtin.int_str.1 _ u w hu hw⟩

end Script

end CalcDoc
