import CalcDoc.Proofs.Numbers.Ranges
import CalcDoc.Script.Evaluation

/-!
# Partial operations of the operators

Floor division and the remainder are made of divisions that are undefined for some operands, and of
a difference and a sum that have to stay in range; the operators on numbers are undefined for
comparisons, which are answered before; and the first of some arguments is taken out without
another look at how many there are. All of this is defined wherever it is used.

- `Partly`: values that may be undefined.
- `intArith?`, `floatArith?`, `Value.binary?`, `Value.sign?`: the operators.
- `Builtin.result?`: the functions.
- `floorDiv?_eq`, `mod?_eq`: the divisions are defined, and the results are in range.
- `Value.arith?_eq`, `Builtin.result?_eq`: so is everything else.
-/

namespace CalcDoc.Script

/-- A value or an error, if it is defined. -/
abbrev Partly (α : Type) := ExceptT Error Option α

/-- What is always defined. -/
def total {α : Type} (r : Except Error α) : Partly α :=
  some r

/-- A value that may be undefined. -/
def partly {α : Type} (a : Option α) : Partly α :=
  a.map .ok

/-! ## Integers -/

/-- The operators between two values. -/
inductive BinaryOp where
  | arith (op : ArithOp)
  | compare (op : CompareOp)

/-- A result that has to be an integer of the language. -/
def inRange? (n : Int) : Partly Int64 :=
  partly (int64? n)

/-- The remainders of two integers are defined if the divisor is not zero and the quotient is in
range. -/
def Divides (a b : Int64) : Prop :=
  b ≠ 0 ∧ ¬ (a.toInt = -0x8000000000000000 ∧ b.toInt = -1)

instance (a b : Int64) : Decidable (Divides a b) :=
  inferInstanceAs (Decidable (_ ∧ _))

/-- The remainder that is not negative. -/
def remainder? (a b : Int64) : Partly Int64 :=
  partly (if Divides a b then some (Int64.ofInt (a.toInt % b.toInt)) else none)

/-- The quotient to a remainder that is not negative, if there is one. -/
def checkedQuotient (a b : Int64) : Option Int64 :=
  if b = 0 then none else int64? (a.toInt / b.toInt)

/-- The remainder with the sign of the dividend, if there is one. -/
def checkedRemainder (a b : Int64) : Option Int64 :=
  if Divides a b then some (Int64.ofInt (a.toInt.tmod b.toInt)) else none

/-- The floor of a quotient. To a negative divisor, the quotient whose remainder is not negative is
one above the floor unless the remainder is zero. -/
def floorDiv? (a b : Int64) : Partly Value :=
  if b = 0 then total (.error .divisionByZero)
  else
    match checkedQuotient a b with
    | none => total (.error (.overflow (.arith .floorDiv)))
    | some q => do
      if b < 0 then
        let r ← remainder? a b
        if r ≠ 0 then return .int (← inRange? (q.toInt - 1))
      return .int q

/-- The remainder with the sign of the divisor. -/
def mod? (a b : Int64) : Partly Value :=
  if b = 0 then total (.error .divisionByZero)
  else
    match checkedRemainder a b with
    | none => total (.error (.overflow (.arith .mod)))
    | some m => do
      if m ≠ 0 ∧ decide (m < 0) ≠ decide (b < 0) then
        return .int (← inRange? (m.toInt + b.toInt))
      return .int m

/-- The operators on two doubles, which are no comparisons. -/
def floatArith? (op : BinaryOp) (x y : Float) : Partly Value :=
  match op with
  | .arith op => total (floatArith op x y)
  | .compare _ => partly none

/-- The operators on two integers, which are no comparisons. -/
def intArith? (op : BinaryOp) (a b : Int64) : Partly Value :=
  match op with
  | .arith .div => floatArith? op (intToFloat a) (intToFloat b)
  | .arith .floorDiv => floorDiv? a b
  | .arith .mod => mod? a b
  | .arith .pow =>
    if b < 0 then floatArith? op (intToFloat a) (intToFloat b) else total (intArith .pow a b)
  | .arith op => total (intArith op a b)
  | .compare _ => partly none

section Ranges

variable {x y : Int}

theorem toInt_eq_zero {a : Int64} : a.toInt = 0 ↔ a = 0 := by
  rw [← Int64.toInt_zero, Int64.toInt_inj]

theorem toInt_neg {a : Int64} : a < 0 ↔ a.toInt < 0 := by
  rw [Int64.lt_iff_toInt_lt, Int64.toInt_zero]

/-- Only the quotient of the lowest integer and -1 is out of range. -/
theorem ediv_range (hx : InRange x) (hy : y ≠ -1) : InRange (x / y) := by
  have hle := Int.natAbs_ediv_le_natAbs x y
  refine ⟨by omega, Int.lt_of_not_ge fun hge => ?_⟩
  have hq : x / y = 0x8000000000000000 := by omega
  have hy0 : y ≠ 0 := by
    rintro rfl
    rw [Int.ediv_zero] at hq
    omega
  have hsum := Int.mul_ediv_add_emod x y
  have hrem := Int.emod_nonneg x hy0
  have hlt := Int.emod_lt x hy0
  rw [hq] at hsum
  omega

theorem fdiv_range (hx : InRange x) (hy : y ≠ -1) : InRange (x.fdiv y) := by
  have hle := Int.natAbs_fdiv_le_natAbs x y
  have hquotient := ediv_range hx hy
  have hfloor : x.fdiv y ≤ x / y := by
    rw [Int.fdiv_eq_ediv]
    split <;> omega
  omega

/-- To a negative divisor, the floor is one below the quotient if a remainder is left. -/
theorem fdiv_of_neg (hy : y < 0) : x.fdiv y = if x % y = 0 then x / y else x / y - 1 := by
  rw [Int.fdiv_eq_ediv]
  by_cases hdvd : y ∣ x
  · rw [if_pos (.inr hdvd), if_pos (Int.emod_eq_zero_of_dvd hdvd), Int.sub_zero]
  · rw [if_neg (not_or.2 ⟨by omega, hdvd⟩), if_neg fun h => hdvd (Int.dvd_of_emod_eq_zero h)]

theorem emod_eq_zero_of_neg_one (hy : y = -1) : x % y = 0 := by
  rw [hy, Int.emod_neg, Int.emod_one]

theorem emod_range (hy : InRange y) (hy0 : y ≠ 0) : InRange (x % y) := by
  have hnonneg := Int.emod_nonneg x hy0
  have hlt := Int.emod_lt x hy0
  omega

theorem fmod_range (hy : InRange y) (hy0 : y ≠ 0) : InRange (x.fmod y) := by
  have hnonneg := Int.emod_nonneg x hy0
  have hlt := Int.emod_lt x hy0
  rw [Int.fmod_eq_emod]
  split <;> omega

theorem tmod_range (hx : InRange x) : InRange (x.tmod y) := by
  have habs := Int.natAbs_tmod x y
  have hle := Nat.mod_le x.natAbs y.natAbs
  by_cases h : 0 ≤ x
  · have hnonneg := Int.tmod_nonneg y h
    omega
  · have hnonneg := Int.tmod_nonneg y (show 0 ≤ -x by omega)
    rw [Int.neg_tmod] at hnonneg
    omega

/-- The remainder with the sign of the dividend has that of the divisor, or is zero, or is off by
the divisor. -/
theorem fmod_eq (x y : Int) :
    x.fmod y =
      if x.tmod y ≠ 0 ∧ decide (x.tmod y < 0) ≠ decide (y < 0) then x.tmod y + y
      else x.tmod y := by
  rw [Int.fmod_eq_tmod]
  by_cases hdvd : y ∣ x
  · have hzero : x.tmod y = 0 := Int.tmod_eq_zero_of_dvd hdvd
    rw [if_pos hdvd, if_neg (by simp [hzero])]
    omega
  · have hne : x.tmod y ≠ 0 := fun h => hdvd (Int.dvd_of_tmod_eq_zero h)
    rw [if_neg hdvd]
    by_cases hx : 0 ≤ x
    · have hnonneg := Int.tmod_nonneg y hx
      have hsign : decide (x.tmod y < 0) = false := decide_eq_false (by omega)
      rw [if_pos hx, hsign]
      by_cases hy : 0 ≤ y
      · rw [if_pos hy, if_neg (by simp [hy]), Int.add_zero]
      · rw [if_neg hy, if_pos ⟨hne, by simp; omega⟩]
    · have hnonneg := Int.tmod_nonneg y (show 0 ≤ -x by omega)
      rw [Int.neg_tmod] at hnonneg
      have hsign : decide (x.tmod y < 0) = true := decide_eq_true (by omega)
      rw [if_neg hx, hsign]
      by_cases hy : 0 ≤ y
      · rw [if_pos hy, if_pos ⟨hne, by simp [hy]⟩]
        omega
      · rw [if_neg hy, if_neg (by simp; omega)]
        omega

end Ranges

section Divisions

variable {a b : Int64}

theorem checkedInt_of_range (what : Overflowing) {n : Int} (h : InRange n) :
    checkedInt what n = .ok (.int (Int64.ofInt n)) := by
  rw [checkedInt, int64?_of_range h]

/-- A quotient in range has a remainder. -/
theorem divides_of_checkedQuotient {q : Int64} (h : checkedQuotient a b = some q) :
    Divides a b ∧ q.toInt = a.toInt / b.toInt := by
  unfold checkedQuotient at h
  split at h
  · cases h
  · next hb =>
    obtain ⟨hq, -, hlt⟩ := toInt_of_int64? h
    refine ⟨⟨hb, ?_⟩, hq⟩
    rintro ⟨hx, hy⟩
    rw [hx, hy] at hlt
    exact absurd hlt (by decide)

/-- The remainder of a quotient that is in range is defined. -/
theorem remainder?_of_divides (h : Divides a b) :
    ∃ r : Int64, remainder? a b = total (.ok r) ∧ (r = 0 ↔ a.toInt % b.toInt = 0) := by
  have hy0 : b.toInt ≠ 0 := fun hb => h.1 (toInt_eq_zero.1 hb)
  refine ⟨Int64.ofInt (a.toInt % b.toInt), ?_, ?_⟩
  · rw [remainder?, if_pos h]
    rfl
  · have hrange := emod_range (x := a.toInt) (toInt_range b) hy0
    rw [← toInt_eq_zero, Int64.toInt_ofInt_of_le hrange.1 hrange.2]

/-- Where no remainder is left, or none is looked for, the quotient is the floor. -/
theorem fdiv_of_checkedQuotient {q : Int64} (h : checkedQuotient a b = some q)
    (hb : b < 0 → a.toInt % b.toInt = 0) :
    checkedInt (.arith .floorDiv) (a.toInt.fdiv b.toInt) = .ok (.int q) := by
  obtain ⟨-, hquotient⟩ := divides_of_checkedQuotient h
  have hfloor : a.toInt.fdiv b.toInt = q.toInt := by
    rw [hquotient]
    by_cases hneg : b < 0
    · rw [fdiv_of_neg (toInt_neg.1 hneg), if_pos (hb hneg)]
    · exact Int.fdiv_eq_ediv_of_nonneg _ (Int.not_lt.1 (mt toInt_neg.2 hneg))
  rw [hfloor, checkedInt_of_range _ (toInt_range q), Int64.ofInt_toInt]

theorem floorDiv?_eq (a b : Int64) : floorDiv? a b = total (intArith .floorDiv a b) := by
  rw [floorDiv?, intArith]
  by_cases hb : b = 0
  · rw [if_pos hb, if_pos hb]
  · rw [if_neg hb, if_neg hb]
    cases hq : checkedQuotient a b with
    | none =>
      -- the only such quotient is to -1, and no remainder is left
      rw [checkedQuotient, if_neg hb] at hq
      have hone : b.toInt = -1 := by
        refine Decidable.byContradiction fun hne => ?_
        rw [int64?_of_range (ediv_range (toInt_range a) hne)] at hq
        cases hq
      rw [fdiv_of_neg (by omega), if_pos (emod_eq_zero_of_neg_one hone), checkedInt, hq]
    | some q =>
      obtain ⟨hdivides, hquotient⟩ := divides_of_checkedQuotient hq
      dsimp only
      by_cases hneg : b < 0
      · obtain ⟨r, hr, hzero⟩ := remainder?_of_divides hdivides
        rw [if_pos hneg, hr]
        by_cases hr0 : r = 0
        · rw [fdiv_of_checkedQuotient hq fun _ => hzero.1 hr0]
          show (if r ≠ 0 then _ else _ : Partly Value) = _
          rw [if_neg (not_not_intro hr0)]
          rfl
        · -- the floor is one below, and in range as every quotient but that to -1
          have hrem : ¬ a.toInt % b.toInt = 0 := mt hzero.2 hr0
          have hone : b.toInt ≠ -1 := fun h => hrem (emod_eq_zero_of_neg_one h)
          have hrange := fdiv_range (toInt_range a) hone
          have hfloor : q.toInt - 1 = a.toInt.fdiv b.toInt := by
            rw [fdiv_of_neg (toInt_neg.1 hneg), if_neg hrem, hquotient]
          show (if r ≠ 0 then _ else _ : Partly Value) = _
          rw [if_pos hr0, hfloor, inRange?, int64?_of_range hrange, checkedInt_of_range _ hrange]
          rfl
      · rw [if_neg hneg, fdiv_of_checkedQuotient hq fun h => absurd h hneg]
        rfl

theorem mod?_eq (a b : Int64) : mod? a b = total (intArith .mod a b) := by
  rw [mod?, intArith]
  by_cases hb : b = 0
  · rw [if_pos hb, if_pos hb]
  · rw [if_neg hb, if_neg hb, checkedRemainder]
    by_cases hlow : a.toInt = -0x8000000000000000 ∧ b.toInt = -1
    · rw [if_neg fun h => h.2 hlow, if_pos hlow]
    · rw [if_pos ⟨hb, hlow⟩, if_neg hlow]
      dsimp only
      have hy0 : b.toInt ≠ 0 := mt toInt_eq_zero.1 hb
      have hrange := fmod_range (x := a.toInt) (toInt_range b) hy0
      have hrem := tmod_range (y := b.toInt) (toInt_range a)
      have hm : (Int64.ofInt (a.toInt.tmod b.toInt)).toInt = a.toInt.tmod b.toInt :=
        Int64.toInt_ofInt_of_le hrem.1 hrem.2
      generalize Int64.ofInt (a.toInt.tmod b.toInt) = m at hm
      rw [checkedInt_of_range _ hrange]
      have hfloor := fmod_eq a.toInt b.toInt
      have hsigns : (m.toInt ≠ 0 ∧ decide (m.toInt < 0) ≠ decide (b.toInt < 0)) ↔
          (m ≠ 0 ∧ decide (m < 0) ≠ decide (b < 0)) := by
        simp only [ne_eq, toInt_eq_zero, toInt_neg]
      rw [← hm] at hfloor
      by_cases hoff : m ≠ 0 ∧ decide (m < 0) ≠ decide (b < 0)
      · rw [if_pos (hsigns.2 hoff)] at hfloor
        rw [if_pos hoff, ← hfloor, inRange?, int64?_of_range hrange]
        rfl
      · rw [if_neg (mt hsigns.1 hoff)] at hfloor
        rw [if_neg hoff, hfloor, Int64.ofInt_toInt]
        rfl

end Divisions

theorem intArith?_eq (op : ArithOp) (a b : Int64) :
    intArith? (.arith op) a b = total (intArith op a b) := by
  cases op with
  | div => rfl
  | floorDiv => exact floorDiv?_eq a b
  | mod => exact mod?_eq a b
  | pow =>
    rw [intArith?]
    by_cases h : b < 0
    · rw [if_pos h, floatArith?, intArith, if_pos h]
    · rw [if_neg h]
  | add | sub | mul => rfl

/-! ## Values -/

/-- The string `n` times in a row, if its bytes can be counted. -/
def repeatString? (s : String) (n : Nat) : Partly String :=
  partly (if s.utf8ByteSize * n < 0x8000000000000000 then some (repeatString s n) else none)

/-- A string as often as `n` says. -/
def timesString? (s : String) (n : Int64) : Partly Value :=
  let times := n.toInt.toNat
  if s.utf8ByteSize * times ≤ maxStringBytes then return .str (← repeatString? s times)
  else total (.error (.overflow (.arith .mul)))

/-- The operators on two numbers, which are no comparisons. -/
def Value.numberArith? (op : BinaryOp) (a b : Value) : Partly Value :=
  match a.toInt?, b.toInt? with
  | some m, some n => intArith? op m n
  | _, _ =>
    match a.toFloat?, b.toFloat? with
    | some x, some y => floatArith? op x y
    | _, _ =>
      match op with
      | .arith op => total (.error (.type (.operands op a.kind b.kind)))
      | .compare _ => partly none

/-- The operators between two values. Comparisons are answered before all others. -/
def Value.binary? (op : BinaryOp) (a b : Value) : Partly Value :=
  match op with
  | .compare op => total (a.compare op b)
  | op =>
    match op, a, b with
    | .arith .add, .str s, .str t => total (concatStrings s t)
    | .arith .mul, .str s, .int n => timesString? s n
    | .arith .mul, .int n, .str s => timesString? s n
    | .arith .mul, .str s, .bool b => timesString? s (if b then 1 else 0)
    | .arith .mul, .bool b, .str s => timesString? s (if b then 1 else 0)
    | op, a, b => a.numberArith? op b

/-- A sign in front of a number. The integer of a boolean is negated without another look. -/
def Value.sign? (op : SignOp) (a : Value) : Partly Value :=
  match op, a with
  | .minus, .bool b => return .int (← inRange? (-(if b then 1 else 0)))
  | op, a => total (a.sign op)

theorem timesString?_eq (s : String) (n : Int64) : timesString? s n = total (timesString s n) := by
  rw [timesString?, timesString]
  by_cases h : s.utf8ByteSize * n.toInt.toNat ≤ maxStringBytes
  · have hlt : s.utf8ByteSize * n.toInt.toNat < 0x8000000000000000 :=
      Nat.lt_of_le_of_lt h (by decide)
    rw [if_pos h, if_pos h, repeatString?, if_pos hlt]
    rfl
  · rw [if_neg h, if_neg h]

theorem Value.numberArith?_eq (op : ArithOp) (a b : Value) :
    a.numberArith? (.arith op) b = total (a.numberArith op b) := by
  unfold Value.numberArith? Value.numberArith
  cases a.toInt? with
  | none => cases a.toFloat? <;> cases b.toFloat? <;> rfl
  | some m =>
    cases b.toInt? with
    | none => cases a.toFloat? <;> cases b.toFloat? <;> rfl
    | some n => exact intArith?_eq op m n

theorem Value.compare?_eq (op : CompareOp) (a b : Value) :
    a.binary? (.compare op) b = total (a.compare op b) := rfl

theorem Value.arith?_eq (op : ArithOp) (a b : Value) :
    a.binary? (.arith op) b = total (a.arith op b) := by
  unfold Value.arith
  split
  · rfl
  · exact timesString?_eq _ _
  · exact timesString?_eq _ _
  · exact timesString?_eq _ _
  · exact timesString?_eq _ _
  · next hadd hint hint' hbool hbool' =>
    -- neither are these operands of strings there
    unfold Value.binary?
    dsimp only
    split
    · next hop => exact (hadd _ _ (BinaryOp.arith.inj hop) rfl rfl).elim
    · next hop => exact (hint _ _ (BinaryOp.arith.inj hop) rfl rfl).elim
    · next hop => exact (hint' _ _ (BinaryOp.arith.inj hop) rfl rfl).elim
    · next hop => exact (hbool _ _ (BinaryOp.arith.inj hop) rfl rfl).elim
    · next hop => exact (hbool' _ _ (BinaryOp.arith.inj hop) rfl rfl).elim
    · exact Value.numberArith?_eq op _ _

theorem Value.sign?_eq (op : SignOp) (a : Value) : a.sign? op = total (a.sign op) := by
  unfold Value.sign?
  split
  · next b => cases b <;> rfl
  · rfl

/-! ## Functions -/

/-- The first of some values, and the others; undefined if there is none. -/
def takeFirst? {α : Type} : List α → Partly (α × List α)
  | [] => partly none
  | a :: as => total (.ok (a, as))

/-- The best of some arguments. -/
def bestOf? (f : Builtin) (better : Ordering) (args : List Value) : Partly Value :=
  if args.isEmpty then total (.error (.arity f .atLeastOne 0))
  else do
    let (best, others) ← takeFirst? args
    total (bestValue better best others)

/-- The value of a function for some arguments. -/
def Builtin.result? (f : Builtin) (args : List Value) : Partly Value :=
  match f with
  | .min => bestOf? .min .lt args
  | .max => bestOf? .max .gt args
  | f => total (f.apply args)

theorem Builtin.result?_eq (f : Builtin) (args : List Value) :
    f.result? args = total (f.apply args) := by
  cases f with
  | min => cases args <;> rfl
  | max => cases args <;> rfl
  | abs | round | int | float | str | len => rfl

end CalcDoc.Script
