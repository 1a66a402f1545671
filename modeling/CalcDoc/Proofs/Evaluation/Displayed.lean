import CalcDoc.Proofs.Grammar.Steps
import CalcDoc.Proofs.Numbers.Ranges
import CalcDoc.Proofs.Numerals
import CalcDoc.Proofs.Spelling
import CalcDoc.Script.Evaluation

/-!
# Integers as expressions

The text of an integer is a program of one expression, whose value is that integer. Literals have no
sign: a negative integer is read as a minus sign in front of its opposite, which has to be in range
before the sign is applied. So the text of the lowest integer, which has no opposite, is no program.

- `Expr.ofInt`, `eval_ofInt`: the expression that the text of an integer is read as, and its value.
- `scan_toDigits`, `scan_minus`: the lexemes of digits, and of a minus sign in front of them.
- `ofText_text_of_nonneg`, `ofText_text_of_neg`: the lexemes of the texts of integers.
- `Program.ofText_text_int`, `Program.ofText_text_lowest`: the texts of the integers as programs.
-/

namespace CalcDoc.Script

/-- The expression that the text of an integer is read as. -/
def Expr.ofInt (n : Int64) : Expr :=
  if n.toInt < 0 then .sign .minus (.literal (.int (-n))) else .literal (.int n)

/-! ## Opposites -/

section Opposites

variable {n : Int64}

theorem lowest_lt_toInt (h : n ≠ Int64.minValue) : -0x8000000000000000 < n.toInt := by
  have hne : n.toInt ≠ -0x8000000000000000 := fun heq =>
    h (Int64.toInt_inj.1 (heq.trans (by decide)))
  exact lt_of_le_of_ne (toInt_range n).1 hne.symm

/-- All integers but the lowest have an opposite. -/
theorem toInt_opposite (h : n ≠ Int64.minValue) : (-n).toInt = -n.toInt := by
  have hlow := lowest_lt_toInt h
  have hhigh := (toInt_range n).2
  rw [Int64.toInt_neg]
  exact Int.bmod_eq_of_le (by omega) (by omega)

/-- The value of the expression, whatever the names. -/
theorem eval_ofInt (h : n ≠ Int64.minValue) (ns : Namespace) :
    (Expr.ofInt n).eval ns = .ok (.int n) := by
  unfold Expr.ofInt
  split
  · show checkedInt .negation (-(-n).toInt) = _
    rw [checkedInt, toInt_opposite h, Int.neg_neg, int64?_toInt]
  · rfl

end Opposites

/-! ## Lexemes -/

/-- The lexeme of a row of digits, if their number is in range. -/
theorem scan_toDigits {k : Nat} {value : Option Int64} (hvalue : int64? k = value)
    (depth line start : Nat) :
    scan depth line start (Nat.toDigits 10 k) =
      match value with
      | some n => .ok ⟨[⟨start, .int n⟩], line⟩
      | none => .error (.malformed line (.integerOutOfRange (toString k))) := by
  obtain ⟨c, ds, htoDigits, hc, hds, hread⟩ := exists_toDigits k
  have htext : toString k = String.ofList (c :: ds) := by
    rw [← htoDigits]
    exact Nat.repr_eq_ofList_toDigits
  have hline : c ≠ '\n' := ne_of_class hc (by decide)
  have hblank : ¬ isBlank c := Bool.eq_false_iff.1 (isBlank_of_isDigit hc)
  have hcomment : c ≠ '#' := ne_of_class hc (by decide)
  have hnumber := readNumber_digits hds endsWord_nil (by rw [hread, hvalue])
  rw [List.append_nil, ← read_of_isDigit hc] at hnumber
  rw [htoDigits, htext]
  cases value with
  | some n => rw [scan_token depth line start hline hblank hcomment hnumber, scan_nil]; rfl
  | none => exact scan_fault depth line start hline hblank hcomment hnumber

/-- A minus sign is an operator of its own, unless an equals sign follows it. -/
theorem scan_minus {t : Text} (h : ∀ u, t ≠ '=' :: u) (depth line start : Nat) :
    scan depth line start ('-' :: t) =
      (scan depth line line t).map fun r =>
        { r with items := ⟨start, .arith .sub⟩ :: r.items } := by
  have hread : Token.read '-' t = .ok (.arith .sub, t) := by
    show Except.ok (readArith .sub t) = _
    unfold readArith
    split
    · next u => exact absurd rfl (h u)
    · rfl
  exact scan_token depth line start (by decide) (by decide) (by decide) hread

theorem toDigits_ne_equals (k : Nat) (u : Text) : Nat.toDigits 10 k ≠ '=' :: u := by
  obtain ⟨c, ds, htoDigits, hc, -⟩ := exists_toDigits k
  intro h
  exact ne_of_class hc (by decide) (List.cons.inj (htoDigits.symm.trans h)).1

section Texts

variable {n : Int64}

theorem ofText_text_of_nonneg (h : 0 ≤ n.toInt) :
    Lexemes.ofText (Value.int n).text.toList = .ok ⟨[⟨1, .int n⟩], 1⟩ := by
  have hvalue : int64? n.toInt.natAbs = some n := by
    rw [Int.natAbs_of_nonneg h, int64?_toInt]
  rw [Value.text, toList_toString_int, if_neg (Int.not_lt.2 h), Lexemes.ofText,
    scan_toDigits hvalue]

theorem ofText_text_of_neg (hneg : n.toInt < 0) (h : n ≠ Int64.minValue) :
    Lexemes.ofText (Value.int n).text.toList =
      .ok ⟨[⟨1, .arith .sub⟩, ⟨1, .int (-n)⟩], 1⟩ := by
  have habs : (n.toInt.natAbs : Int) = (-n).toInt := by
    rw [toInt_opposite h, Int.ofNat_natAbs_of_nonpos (le_of_lt hneg)]
  have hvalue : int64? n.toInt.natAbs = some (-n) := by
    rw [habs, int64?_toInt]
  rw [Value.text, toList_toString_int, if_pos hneg, Lexemes.ofText,
    scan_minus (toDigits_ne_equals _), scan_toDigits hvalue]
  rfl

end Texts

/-! ## Programs -/

/-- The text of every integer but the lowest is a program of one expression, whose value is that
integer under all names. -/
theorem Program.ofText_text_int {n : Int64} (h : n ≠ Int64.minValue) :
    Program.ofText (Value.int n).text.toList = .ok [⟨1, .eval (Expr.ofInt n)⟩] ∧
      ∀ ns, (Expr.ofInt n).eval ns = .ok (.int n) := by
  refine ⟨?_, eval_ofInt h⟩
  by_cases hneg : n.toInt < 0
  · rw [Program.ofText, ofText_text_of_neg hneg h, Expr.ofInt, if_pos hneg]
    exact readProgram_of_readExpr rfl
  · rw [Program.ofText, ofText_text_of_nonneg (Int.not_lt.1 hneg), Expr.ofInt, if_neg hneg]
    exact readProgram_of_readExpr rfl

/-- The integer above the lowest one, with its sign. -/
theorem Program.ofText_text_int_of_opposite :
    (-9223372036854775807 : Int64) ≠ Int64.minValue ∧
    (Value.int (-9223372036854775807)).text = "-9223372036854775807" ∧
    Program.ofText "-9223372036854775807".toList =
      .ok [⟨1, .eval (.sign .minus (.literal (.int 9223372036854775807)))⟩] ∧
    ∀ ns, (Expr.sign .minus (.literal (.int 9223372036854775807))).eval ns =
      .ok (.int (-9223372036854775807)) := by
  have hne : (-9223372036854775807 : Int64) ≠ Int64.minValue := by decide
  have htext : (Value.int (-9223372036854775807)).text = "-9223372036854775807" := by decide
  obtain ⟨hread, heval⟩ := Program.ofText_text_int hne
  rw [htext] at hread
  exact ⟨hne, htext, hread, heval⟩

/-- The text of the lowest integer is no program: the literal behind its sign is out of range. -/
theorem Program.ofText_text_lowest :
    Program.ofText (Value.int Int64.minValue).text.toList =
      .error (.malformed 1 (.integerOutOfRange "9223372036854775808")) ∧
    ¬ ∃ line e, Program.ofText (Value.int Int64.minValue).text.toList =
      .ok [⟨line, .eval e⟩] := by
  have herror : Program.ofText (Value.int Int64.minValue).text.toList =
      .error (.malformed 1 (.integerOutOfRange "9223372036854775808")) := by
    have hneg : Int64.minValue.toInt < 0 := by decide
    have hvalue : int64? Int64.minValue.toInt.natAbs = none := by decide
    rw [Program.ofText, Value.text, toList_toString_int, if_pos hneg, Lexemes.ofText,
      scan_minus (toDigits_ne_equals _), scan_toDigits hvalue]
    rfl
  refine ⟨herror, ?_⟩
  rintro ⟨line, e, hok⟩
  rw [herror] at hok
  cases hok

end CalcDoc.Script
