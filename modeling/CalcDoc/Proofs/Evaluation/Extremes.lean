import CalcDoc.Proofs.Evaluation.Equality
import CalcDoc.Proofs.Evaluation.Operators
import CalcDoc.Proofs.Numbers.Conversion

/-!
# The least and the greatest argument

The order of numbers is made of two: integers are compared exactly, all else as doubles. Being equal
is not transitive, but being less is, because the double nearest to an integer grows with it. So one
pass over the arguments finds one that none is better than.

- `Value.order_cases`: the three ways in which values are compared.
- `Value.order_trans`: less and greater are transitive.
- `Value.order_isOk_iff`: the values that have an order.
- `bestValue_isOk_iff`, `bestValue_best`: when the pass ends well, and what it finds then.
- `min_max_choose`: the functions that make this pass.
-/

namespace CalcDoc.Script

open Binary64 (Extended)

/-- The scales on which values are ordered. -/
inductive Scale where
  | strings | numbers

namespace Value

variable {a b c : Value} {o : Ordering} {m n : Int64} {p q r : Extended}

/-! ## Numbers as doubles -/

/-- What the double of a number stands for; nothing for NaN. -/
def extended? (v : Value) : Option Extended :=
  v.toFloat?.bind Binary64.extended?

theorem extended?_of_toInt? (h : a.toInt? = some n) :
    a.extended? = some (Extended.ofRat (Binary64.nearest n.toInt)) := by
  rw [extended?, toFloat?_of_toInt? h]
  exact Binary64.extended?_of_value? (Binary64.value?_intToFloat n)

/-- The double of a greater integer is no less. -/
theorem extended_mono (ha : a.toInt? = some m) (hb : b.toInt? = some n) (hp : a.extended? = some p)
    (hq : b.extended? = some q) (h : m.toInt ≤ n.toInt) : p ≤ q := by
  rw [extended?_of_toInt? ha] at hp
  rw [extended?_of_toInt? hb] at hq
  cases hp
  cases hq
  exact Extended.strictMono_ofRat.monotone (Int.cast_le.2 (Binary64.nearest_mono h))

/-- The doubles of all numbers but NaN stand for something. -/
theorem extended?_iff : (∃ p, a.extended? = some p) ↔
    a.isNumber ∧ ∀ x, a = .float x → x.isNaN = false := by
  cases h : a.toInt? with
  | some n =>
    refine iff_of_true ⟨_, extended?_of_toInt? h⟩ ⟨isNumber_of_toFloat? (toFloat?_of_toInt? h), ?_⟩
    rintro x rfl
    cases h
  | none =>
    cases a with
    | absent => exact iff_of_false nofun nofun
    | str s => exact iff_of_false nofun nofun
    | bool b => cases h
    | int n => cases h
    | float x =>
      refine Binary64.exists_extended?_iff.trans ⟨fun hx => ⟨rfl, ?_⟩, fun hx => hx.2 x rfl⟩
      intro y hy
      cases hy
      exact hx

/-! ## The order -/

theorem order_extended (hp : a.extended? = some p) (hq : b.extended? = some q)
    (h : a.toInt? = none ∨ b.toInt? = none) : a.order b = .ok (Ord.compare p q) := by
  obtain ⟨x, hx, hp⟩ := Option.bind_eq_some_iff.1 hp
  obtain ⟨y, hy, hq⟩ := Option.bind_eq_some_iff.1 hq
  rw [order_floats hx hy h, Binary64.order?_eq hp hq]
  rfl

/-- Strings are compared with strings, integers as such, and other numbers by their doubles. -/
theorem order_cases (h : a.order b = .ok o) :
    (∃ s t, a = .str s ∧ b = .str t ∧ o = Ord.compare s t) ∨
    (∃ m n, a.toInt? = some m ∧ b.toInt? = some n ∧ o = Ord.compare m.toInt n.toInt) ∨
    (a.toInt? = none ∨ b.toInt? = none) ∧
      ∃ p q, a.extended? = some p ∧ b.extended? = some q ∧ o = Ord.compare p q := by
  rcases ints_or_not a b with hnot | ⟨m, n, ha, hb⟩
  · unfold order at h
    split at h
    · next s t =>
      cases h
      exact .inl ⟨s, t, rfl, rfl, rfl⟩
    · split at h
      · next m n ha hb => simp [ha, hb] at hnot
      · split at h
        · next x y hx hy =>
          split at h
          · next o ho =>
            cases h
            obtain ⟨p, q, hp, hq, ho⟩ := Binary64.exists_extended?_of_order? ho
            exact .inr (.inr ⟨hnot, p, q, Option.bind_eq_some_iff.2 ⟨x, hx, hp⟩,
              Option.bind_eq_some_iff.2 ⟨y, hy, hq⟩, ho⟩)
          · cases h
        · cases h
  · rw [order_ints ha hb] at h
    cases h
    exact .inr (.inl ⟨m, n, ha, hb, rfl⟩)

theorem order_swap (h : a.order b = .ok o) : b.order a = .ok o.swap := by
  rcases order_cases h with ⟨s, t, rfl, rfl, rfl⟩ | ⟨m, n, ha, hb, rfl⟩ |
    ⟨hnot, p, q, hp, hq, rfl⟩
  · exact congrArg Except.ok Std.OrientedCmp.eq_swap
  · rw [order_ints hb ha]
    exact congrArg Except.ok Std.OrientedCmp.eq_swap
  · rw [order_extended hq hp hnot.symm]
    exact congrArg Except.ok Std.OrientedCmp.eq_swap

/-- No value is better than itself. -/
theorem order_self (hne : o ≠ .eq) (a : Value) : a.order a ≠ .ok o := by
  intro h
  have hswap := order_swap h
  rw [h] at hswap
  cases o with
  | eq => exact hne rfl
  | lt => cases hswap
  | gt => cases hswap

/-- The scale of a value; NaN and the absent value have none. -/
def scale? : Value → Option Scale
  | .str _ => some .strings
  | v => v.extended?.map fun _ => .numbers

theorem scale?_strings_iff : a.scale? = some .strings ↔ ∃ s, a = .str s := by
  constructor
  · intro h
    cases a with
    | str s => exact ⟨s, rfl⟩
    | _ =>
      unfold scale? at h
      obtain ⟨p, -, h⟩ := Option.map_eq_some_iff.1 h
      cases h
  · rintro ⟨s, rfl⟩
    rfl

theorem scale?_numbers_iff : a.scale? = some .numbers ↔ ∃ p, a.extended? = some p := by
  constructor
  · intro h
    cases a with
    | str s => cases h
    | _ =>
      unfold scale? at h
      obtain ⟨p, hp, -⟩ := Option.map_eq_some_iff.1 h
      exact ⟨p, hp⟩
  · rintro ⟨p, hp⟩
    cases a with
    | str s => cases hp
    | _ =>
      unfold scale?
      exact Option.map_eq_some_iff.2 ⟨p, hp, rfl⟩

/-- Values of one scale have an order, and no others. -/
theorem order_isOk_iff :
    (∃ o, a.order b = .ok o) ↔ ∃ scale, a.scale? = some scale ∧ b.scale? = some scale := by
  constructor
  · rintro ⟨o, h⟩
    rcases order_cases h with ⟨s, t, rfl, rfl, -⟩ | ⟨m, n, ha, hb, -⟩ | ⟨-, p, q, hp, hq, -⟩
    · exact ⟨.strings, rfl, rfl⟩
    · exact ⟨.numbers, scale?_numbers_iff.2 ⟨_, extended?_of_toInt? ha⟩,
        scale?_numbers_iff.2 ⟨_, extended?_of_toInt? hb⟩⟩
    · exact ⟨.numbers, scale?_numbers_iff.2 ⟨p, hp⟩, scale?_numbers_iff.2 ⟨q, hq⟩⟩
  · rintro ⟨scale, ha, hb⟩
    cases scale with
    | strings =>
      obtain ⟨s, rfl⟩ := scale?_strings_iff.1 ha
      obtain ⟨t, rfl⟩ := scale?_strings_iff.1 hb
      exact ⟨_, rfl⟩
    | numbers =>
      obtain ⟨p, hp⟩ := scale?_numbers_iff.1 ha
      obtain ⟨q, hq⟩ := scale?_numbers_iff.1 hb
      rcases ints_or_not a b with hnot | ⟨m, n, hm, hn⟩
      · exact ⟨_, order_extended hp hq hnot⟩
      · exact ⟨_, order_ints hm hn⟩

/-! ## Transitivity -/

theorem toInt_lt_of_order (h : a.order b = .ok .lt) (ha : a.toInt? = some m)
    (hb : b.toInt? = some n) : m.toInt < n.toInt := by
  rw [order_ints ha hb] at h
  exact compare_lt_iff_lt.1 (Except.ok.inj h)

theorem extended_lt_of_order (h : a.order b = .ok .lt) (hp : a.extended? = some p)
    (hq : b.extended? = some q) (hnot : a.toInt? = none ∨ b.toInt? = none) : p < q := by
  rw [order_extended hp hq hnot] at h
  exact compare_lt_iff_lt.1 (Except.ok.inj h)

/-- The double of a lesser number is never greater. -/
theorem extended_le_of_order (h : a.order b = .ok .lt) (hp : a.extended? = some p)
    (hq : b.extended? = some q) : p ≤ q := by
  rcases ints_or_not a b with hnot | ⟨m, n, ha, hb⟩
  · exact (extended_lt_of_order h hp hq hnot).le
  · exact extended_mono ha hb hp hq (toInt_lt_of_order h ha hb).le

theorem order_trans_extended (h : a.order b = .ok .lt) (h' : b.order c = .ok .lt)
    (hp : a.extended? = some p) (hq : b.extended? = some q) (hr : c.extended? = some r) :
    a.order c = .ok .lt := by
  have hpq := extended_le_of_order h hp hq
  have hqr := extended_le_of_order h' hq hr
  rcases ints_or_not a c with hnot | ⟨m, k, ha, hc⟩
  · rw [order_extended hp hr hnot]
    refine congrArg Except.ok (compare_lt_iff_lt.2 ?_)
    rcases hnot with ha | hc
    · exact (extended_lt_of_order h hp hq (.inl ha)).trans_le hqr
    · exact hpq.trans_lt (extended_lt_of_order h' hq hr (.inr hc))
  · rw [order_ints ha hc]
    refine congrArg Except.ok (compare_lt_iff_lt.2 ?_)
    cases hb : b.toInt? with
    | some n => exact (toInt_lt_of_order h ha hb).trans (toInt_lt_of_order h' hb hc)
    | none =>
      -- the double between them is beyond the one's and before the other's, and conversion keeps
      -- the order, so the integers cannot be the other way round
      by_contra hle
      have hrp := extended_mono hc ha hr hp (Int.not_lt.1 hle)
      exact absurd (extended_lt_of_order h hp hq (.inr hb)) (hqr.trans hrp).not_gt

theorem order_trans_lt (h : a.order b = .ok .lt) (h' : b.order c = .ok .lt) :
    a.order c = .ok .lt := by
  obtain ⟨scale, ha, hb⟩ := order_isOk_iff.1 ⟨_, h⟩
  obtain ⟨scale', hb', hc⟩ := order_isOk_iff.1 ⟨_, h'⟩
  rw [hb] at hb'
  cases hb'
  cases scale with
  | strings =>
    obtain ⟨s, rfl⟩ := scale?_strings_iff.1 ha
    obtain ⟨t, rfl⟩ := scale?_strings_iff.1 hb
    obtain ⟨u, rfl⟩ := scale?_strings_iff.1 hc
    exact congrArg Except.ok (Std.TransCmp.lt_trans (Except.ok.inj h) (Except.ok.inj h'))
  | numbers =>
    obtain ⟨p, hp⟩ := scale?_numbers_iff.1 ha
    obtain ⟨q, hq⟩ := scale?_numbers_iff.1 hb
    obtain ⟨r, hr⟩ := scale?_numbers_iff.1 hc
    exact order_trans_extended h h' hp hq hr

/-- Being less is transitive, and being greater. -/
theorem order_trans (hne : o ≠ .eq) (h : a.order b = .ok o) (h' : b.order c = .ok o) :
    a.order c = .ok o := by
  cases o with
  | eq => exact absurd rfl hne
  | lt => exact order_trans_lt h h'
  | gt => exact order_swap (order_trans_lt (order_swap h') (order_swap h))

theorem order_error {e : Error} (h : a.order b = .error e) : ∃ fault, e = .type fault := by
  unfold order at h
  split at h
  · cases h
  · split at h
    · cases h
    · split at h
      · split at h
        · cases h
        · cases h
          exact ⟨_, rfl⟩
      · cases h
        exact ⟨_, rfl⟩

end Value

/-! ## One pass over the arguments -/

section Pass

variable {better : Ordering} {best r : Value} {vs : List Value}

/-- The first value decides on the scale. -/
theorem one_scale_iff {scale : Scale} (h : best.scale? = some scale) :
    (∃ scale', ∀ w ∈ best :: vs, w.scale? = some scale') ↔ ∀ w ∈ vs, w.scale? = some scale := by
  constructor
  · rintro ⟨scale', hall⟩ w hw
    rw [← h, hall best List.mem_cons_self]
    exact hall w (List.mem_cons_of_mem _ hw)
  · intro hall
    exact ⟨scale, List.forall_mem_cons.2 ⟨h, hall⟩⟩

/-- The pass ends well if there is no other value, or if all of them are of one scale. -/
theorem bestValue_isOk_iff (better : Ordering) (best : Value) (vs : List Value) :
    (∃ r, bestValue better best vs = .ok r) ↔
      vs = [] ∨ ∃ scale, ∀ w ∈ best :: vs, w.scale? = some scale := by
  induction vs generalizing best with
  | nil => exact iff_of_true ⟨best, rfl⟩ (.inl rfl)
  | cons v vs ih =>
    unfold bestValue
    cases ho : v.order best with
    | error e =>
      constructor
      · rintro ⟨r, h⟩
        cases h
      · rintro (hnil | ⟨scale, hall⟩)
        · cases hnil
        · obtain ⟨o, hok⟩ :=
            Value.order_isOk_iff.2 ⟨scale, hall v (by simp), hall best (by simp)⟩
          rw [ho] at hok
          cases hok
    | ok o =>
      obtain ⟨scale, hv, hbest⟩ := Value.order_isOk_iff.1 ⟨o, ho⟩
      have hnext : (if o = better then v else best).scale? = some scale := by
        split <;> assumption
      dsimp only
      rw [ih, one_scale_iff hnext, one_scale_iff hbest, List.forall_mem_cons]
      constructor
      · rintro (rfl | hall)
        · exact .inr ⟨hv, List.forall_mem_nil _⟩
        · exact .inr ⟨hv, hall⟩
      · rintro (hnil | ⟨-, hall⟩)
        · cases hnil
        · exact .inr hall

/-- What is not better than the best value so far is not better than the next one, and neither is
the value that this one was compared with. -/
theorem next_best {o : Ordering} {v : Value} (hne : better ≠ .eq) (ho : v.order best = .ok o) :
    let next := if o = better then v else best
    (∀ w : Value, w.order best ≠ .ok better → w.order next ≠ .ok better) ∧
      v.order next ≠ .ok better := by
  intro next
  by_cases hbetter : o = better
  · rw [show next = v from if_pos hbetter]
    rw [hbetter] at ho
    exact ⟨fun w hw hv => hw (Value.order_trans hne hv ho), Value.order_self hne v⟩
  · rw [show next = best from if_neg hbetter, ho]
    exact ⟨fun _ hw => hw, fun heq => hbetter (Except.ok.inj heq)⟩

/-- The pass keeps this up. -/
theorem bestValue_best (hne : better ≠ .eq) (h : bestValue better best vs = .ok r) :
    (∀ w : Value, w.order best ≠ .ok better → w.order r ≠ .ok better) ∧
      ∀ w ∈ vs, w.order r ≠ .ok better := by
  induction vs generalizing best with
  | nil =>
    cases h
    exact ⟨fun _ hw => hw, nofun⟩
  | cons v vs ih =>
    unfold bestValue at h
    cases ho : v.order best with
    | error e =>
      rw [ho] at h
      cases h
    | ok o =>
      rw [ho] at h
      obtain ⟨hstep, hv⟩ := next_best hne ho
      obtain ⟨hrun, hvs⟩ := ih h
      refine ⟨fun w hw => hrun w (hstep w hw), fun w hw => ?_⟩
      rcases List.mem_cons.1 hw with rfl | hw
      · exact hrun _ hv
      · exact hvs w hw

theorem bestValue_error {e : Error} (h : bestValue better best vs = .error e) :
    ∃ fault, e = .type fault := by
  induction vs generalizing best with
  | nil => cases h
  | cons v vs ih =>
    unfold bestValue at h
    cases ho : v.order best with
    | error e' =>
      rw [ho] at h
      cases h
      exact Value.order_error ho
    | ok o =>
      rw [ho] at h
      exact ih h

end Pass

/-- What a function should answer that looks for the best one of its arguments. -/
structure Chooses (better : Ordering) (args : List Value) (answer : Except Error Value) :
    Prop where
  succeeds : (∃ r, answer = .ok r) ↔ args.length = 1 ∨ (∀ w ∈ args, ∃ s, w = .str s) ∨
    ∀ w ∈ args, w.isNumber ∧ ∀ x, w = .float x → x.isNaN = false
  fails : ∀ e, answer = .error e → ∃ fault, e = .type fault
  mem : ∀ r, answer = .ok r → r ∈ args
  best : ∀ r, answer = .ok r → ∀ w ∈ args, w.order r ≠ .ok better

theorem chooses_bestValue (hne : better ≠ .eq) (v : Value) (vs : List Value) :
    Chooses better (v :: vs) (bestValue better v vs) where
  succeeds := by
    refine (bestValue_isOk_iff better v vs).trans (or_congr ?_ ?_)
    · rw [List.length_cons, Nat.add_eq_right, List.length_eq_zero_iff]
    · constructor
      · rintro ⟨scale, hall⟩
        cases scale with
        | strings => exact .inl fun w hw => Value.scale?_strings_iff.1 (hall w hw)
        | numbers =>
          exact .inr fun w hw => Value.extended?_iff.1 (Value.scale?_numbers_iff.1 (hall w hw))
      · rintro (hall | hall)
        · exact ⟨.strings, fun w hw => Value.scale?_strings_iff.2 (hall w hw)⟩
        · exact ⟨.numbers, fun w hw =>
            Value.scale?_numbers_iff.2 (Value.extended?_iff.2 (hall w hw))⟩
  fails _ h := bestValue_error h
  mem r h := by
    have hmem := mem_bestValue better v vs
    rw [h] at hmem
    exact hmem
  best r h w hw := by
    obtain ⟨hrun, hvs⟩ := bestValue_best hne h
    rcases List.mem_cons.1 hw with rfl | hw
    · exact hrun _ (Value.order_self hne _)
    · exact hvs w hw

/-- Both functions find an argument that none is better than, if the arguments are one, or strings
only, or numbers other than NaN only; else they fail with a type error. -/
theorem min_max_choose (v : Value) (vs : List Value) :
    Chooses .lt (v :: vs) (callFunction "min" (v :: vs)) ∧
    Chooses .gt (v :: vs) (callFunction "max" (v :: vs)) :=
  ⟨chooses_bestValue (show Ordering.lt ≠ .eq from nofun) v vs,
    chooses_bestValue (show Ordering.gt ≠ .eq from nofun) v vs⟩

end CalcDoc.Script
