import CalcDoc.Proofs.Evaluation.Results
import CalcDoc.Proofs.Numbers.Lengths

/-!
# What operators and functions give

Two things hold of all operators and functions. None of them fails because a source is no program:
only reading finds that. And none of them makes a string of more than `maxStringBytes` bytes,
though a function may hand on one that it was given.

- `Value.Fits`: a string is not too long. Values of other kinds always fit.
- `Error.isMalformed`: whether an error says that a source is no program.
- `fits_arith`, `fits_sign`, `fits_compare`, `fits_callFunction`: the operators and functions.
- `operations_of_fits`: what all short values have is kept by whole programs.
-/

namespace CalcDoc.Script

/-- A string has at most `maxStringBytes` bytes of UTF-8. -/
def Value.Fits : Value → Prop
  | .str s => s.utf8ByteSize ≤ maxStringBytes
  | _ => True

/-- Whether a block fails because its source is no program. -/
def Error.isMalformed : Error → Bool
  | .malformed _ _ => true
  | _ => false

/-- What is computed has a property, or the computation fails, but not for the source being no
program. -/
abbrev Gives {α : Type} (P : α → Prop) : Except Error α → Prop :=
  Results P fun err => err.isMalformed = false

theorem Results.mono {α : Type} {P Q : α → Prop} {E : Error → Prop} {r : Except Error α}
    (h : Results P E r) (hPQ : ∀ a, P a → Q a) : Results Q E r := by
  cases r with
  | ok a => exact hPQ a h
  | error err => exact h

/-! ## Operators on numbers -/

theorem fits_checkedInt (what : Overflowing) (n : Int) : Gives Value.Fits (checkedInt what n) := by
  unfold checkedInt
  split
  · exact trivial
  · rfl

theorem fits_floatArith (op : ArithOp) (x y : Float) : Gives Value.Fits (floatArith op x y) := by
  cases op with
  | add | sub | mul | pow => exact trivial
  | div | floorDiv | mod =>
    unfold floatArith
    dsimp only
    split
    · rfl
    · exact trivial

theorem fits_intArith (op : ArithOp) (a b : Int64) : Gives Value.Fits (intArith op a b) := by
  cases op with
  | add => exact fits_checkedInt (.arith .add) _
  | sub => exact fits_checkedInt (.arith .sub) _
  | mul => exact fits_checkedInt (.arith .mul) _
  | div => exact fits_floatArith .div _ _
  | floorDiv =>
    unfold intArith
    dsimp only
    split
    · rfl
    · exact fits_checkedInt (.arith .floorDiv) _
  | mod =>
    unfold intArith
    dsimp only
    split
    · rfl
    · split
      · rfl
      · exact fits_checkedInt (.arith .mod) _
  | pow =>
    unfold intArith
    dsimp only
    split
    · exact fits_floatArith .pow _ _
    · split
      · exact trivial
      · rfl

theorem fits_numberArith (op : ArithOp) (a b : Value) :
    Gives Value.Fits (a.numberArith op b) := by
  unfold Value.numberArith
  split
  · exact fits_intArith op _ _
  · split
    · exact fits_floatArith op _ _
    · rfl

/-! ## Operators on strings -/

theorem utf8ByteSize_repeatString (s : String) (n : Nat) :
    (repeatString s n).utf8ByteSize = s.utf8ByteSize * n := by
  fun_induction repeatString s n with
  | case1 => rfl
  | case2 n hn half heven ih =>
    have htwo : n = n / 2 + n / 2 := by omega
    rw [String.utf8ByteSize_append, ih, ← Nat.mul_add, ← htwo]
  | case3 n hn half hodd ih =>
    have htwo : n = n / 2 + n / 2 + 1 := by omega
    calc (half ++ half ++ s).utf8ByteSize
        = s.utf8ByteSize * (n / 2) + s.utf8ByteSize * (n / 2) + s.utf8ByteSize := by
          rw [String.utf8ByteSize_append, String.utf8ByteSize_append, ih]
      _ = s.utf8ByteSize * (n / 2 + n / 2 + 1) := by rw [Nat.mul_succ, Nat.mul_add]
      _ = s.utf8ByteSize * n := by rw [← htwo]

theorem fits_concatStrings (s t : String) : Gives Value.Fits (concatStrings s t) := by
  unfold concatStrings
  split
  · next h =>
    show (s ++ t).utf8ByteSize ≤ maxStringBytes
    rw [String.utf8ByteSize_append]
    exact h
  · rfl

theorem fits_timesString (s : String) (n : Int64) : Gives Value.Fits (timesString s n) := by
  unfold timesString
  dsimp only
  split
  · next h =>
    show (repeatString s n.toInt.toNat).utf8ByteSize ≤ maxStringBytes
    rw [utf8ByteSize_repeatString]
    exact h
  · rfl

/-! ## Operators on all values -/

theorem fits_arith (op : ArithOp) (a b : Value) : Gives Value.Fits (a.arith op b) := by
  unfold Value.arith
  split
  · exact fits_concatStrings _ _
  · exact fits_timesString _ _
  · exact fits_timesString _ _
  · exact fits_timesString _ _
  · exact fits_timesString _ _
  · exact fits_numberArith op a b

theorem fits_sign (op : SignOp) (a : Value) : Gives Value.Fits (a.sign op) := by
  unfold Value.sign
  split
  · exact trivial
  · exact trivial
  · split
    · exact fits_checkedInt .negation _
    · exact trivial
    · rfl

theorem gives_order (a b : Value) : Gives (fun _ => True) (a.order b) := by
  unfold Value.order
  split
  · exact trivial
  · split
    · exact trivial
    · split
      · split
        · exact trivial
        · rfl
      · rfl

theorem fits_compare (op : CompareOp) (a b : Value) : Gives Value.Fits (a.compare op b) := by
  have horder := gives_order a b
  unfold Value.compare
  split
  · exact trivial
  · exact trivial
  · cases ho : a.order b with
    | ok o => exact trivial
    | error err =>
      rw [ho] at horder
      exact horder

/-! ## Functions -/

theorem utf8ByteSize_repr_le {n k : Nat} (hk : 0 < k) (h : n < 10 ^ k) :
    n.repr.utf8ByteSize ≤ 4 * k := by
  have hlength := (Nat.length_toDigits_le_iff (b := 10) (by decide) hk).2 h
  rw [Nat.repr_eq_ofList_toDigits]
  exact (Text.byteSize_le_length _).trans (Nat.mul_le_mul_left 4 hlength)

/-- An integer has its digits and a sign. -/
theorem utf8ByteSize_toString_int {n : Int} {k : Nat} (hk : 0 < k) (h : n.natAbs < 10 ^ k) :
    (toString n).utf8ByteSize ≤ 4 * k + 1 := by
  rw [Int.toString_eq_repr]
  cases n with
  | ofNat m => exact (utf8ByteSize_repr_le hk h).trans (Nat.le_succ _)
  | negSucc m =>
    show ("-" ++ m.succ.repr).utf8ByteSize ≤ 4 * k + 1
    rw [String.utf8ByteSize_append, Nat.add_comm]
    exact Nat.add_le_add_right (utf8ByteSize_repr_le hk h) 1

/-- The text of a value is no longer than a string may be, unless the value is a longer string. -/
theorem utf8ByteSize_text {v : Value} (h : v.Fits) : v.text.utf8ByteSize ≤ maxStringBytes := by
  have short {n : Nat} (hn : n ≤ 16384) : n ≤ maxStringBytes := hn.trans (by decide +kernel)
  cases v with
  | absent => exact short (by decide)
  | bool b =>
    cases b with
    | true => exact short (by decide)
    | false => exact short (by decide)
  | int n =>
    have hlow := Int64.le_toInt n
    have hhigh := Int64.toInt_lt n
    have htext := utf8ByteSize_toString_int (n := n.toInt) (k := 19) (by decide) (by omega)
    exact short (htext.trans (by decide))
  | float x => exact short (utf8ByteSize_floatText x)
  | str s => exact h

theorem fits_nearestInt (f : Builtin) (n : Option Int) : Gives Value.Fits (nearestInt f n) := by
  unfold nearestInt
  split
  · split
    · exact fits_checkedInt (.builtin f) _
    · rfl
  · rfl

theorem fits_absValue (v : Value) : Gives Value.Fits (absValue v) := by
  unfold absValue
  split
  · exact trivial
  · split
    · next n _ =>
      generalize (n.toInt.natAbs : Int) = k
      exact fits_checkedInt (.builtin .abs) k
    · rfl

theorem gives_needNumber (f : Builtin) (v : Value) : Gives (fun _ => True) (needNumber f v) := by
  unfold needNumber
  split
  · exact trivial
  · rfl

theorem fits_roundValue (v : Value) : Gives Value.Fits (roundValue v) := by
  unfold roundValue
  match needNumber .round v, gives_needNumber .round v with
  | .ok x, _ => exact fits_nearestInt .round _
  | .error _, herr => exact herr

theorem fits_roundPlaces (v places : Value) : Gives Value.Fits (roundPlaces v places) := by
  unfold roundPlaces
  match needNumber .round v, gives_needNumber .round v with
  | .ok x, _ =>
    dsimp only
    split
    · rfl
    · exact trivial
  | .error _, herr => exact herr

theorem fits_intValue (v : Value) : Gives Value.Fits (intValue v) := by
  unfold intValue
  split
  · exact fits_nearestInt .int _
  · split
    · exact trivial
    · rfl
  · split
    · exact trivial
    · rfl

theorem fits_floatValue (v : Value) : Gives Value.Fits (floatValue v) := by
  unfold floatValue
  split
  · split
    · exact trivial
    · rfl
  · split
    · exact trivial
    · rfl

theorem fits_lenValue (v : Value) : Gives Value.Fits (lenValue v) := by
  unfold lenValue
  split
  · exact trivial
  · rfl

/-- The best of some values is one of them. -/
theorem mem_bestValue (better : Ordering) (best : Value) (vs : List Value) :
    Gives (· ∈ best :: vs) (bestValue better best vs) := by
  induction vs generalizing best with
  | nil => exact List.mem_singleton_self best
  | cons v vs ih =>
    unfold bestValue
    match v.order best, gives_order v best with
    | .ok o, _ =>
      dsimp only
      split
      · exact (ih v).mono fun _ h => List.mem_cons_of_mem _ h
      · refine (ih best).mono fun w h => ?_
        rcases List.mem_cons.1 h with rfl | h
        · exact List.mem_cons_self
        · exact List.mem_cons_of_mem _ (List.mem_cons_of_mem _ h)
    | .error _, herr => exact herr

/-- A function gives a short value, or one that it was given. -/
theorem fits_apply (f : Builtin) (vs : List Value) :
    Gives (fun v => v.Fits ∨ v ∈ vs) (f.apply vs) := by
  have short {r : Except Error Value} (h : Gives Value.Fits r) :
      Gives (fun v => v.Fits ∨ v ∈ vs) r := h.mono fun _ => Or.inl
  unfold Builtin.apply
  split
  · exact short (fits_absValue _)
  · exact short (fits_roundValue _)
  · exact short (fits_roundPlaces _ _)
  · exact short (fits_intValue _)
  · exact short (fits_floatValue _)
  · next v =>
    cases v with
    | str s => exact .inr List.mem_cons_self
    | absent | bool | int | float => exact .inl (utf8ByteSize_text trivial)
  · exact short (fits_lenValue _)
  · exact (mem_bestValue .lt _ _).mono fun _ => Or.inr
  · exact (mem_bestValue .gt _ _).mono fun _ => Or.inr
  all_goals rfl

theorem fits_callFunction (f : String) (vs : List Value) :
    Gives (fun v => v.Fits ∨ v ∈ vs) (callFunction f vs) := by
  unfold callFunction
  split
  · exact fits_apply _ vs
  · rfl

/-- What all short values have is kept by programs, and none of them fails for its source being no
program. -/
theorem operations_of_fits {P : Value → Prop} (hP : ∀ v, v.Fits → P v) :
    Operations P fun err => err.isMalformed = false where
  bool _ := hP _ trivial
  sign op a _ := (fits_sign op a).mono hP
  arith op a b _ _ := (fits_arith op a b).mono hP
  compare op a b _ _ := (fits_compare op a b).mono hP
  call f vs h := (fits_callFunction f vs).mono fun v hv => hv.elim (hP v) (h v)
  undefined _ := rfl

end CalcDoc.Script
