import CalcDoc.Script.Lexemes

/-!
# Steps of the scan

What the scan of a text does with its first character, one statement for each kind of character.

- `depthAfter`: the open parentheses after a token.
- `scan_newline`, `scan_newline_inside`, `scan_blank`, `scan_comment`: what becomes no token.
- `scan_token`, `scan_fault`: what becomes a token, or begins none.
- `scan_induction`: induction over the steps of a scan.
-/

namespace CalcDoc.Script

/-- The open parentheses after a token. -/
def depthAfter (depth : Nat) : Token → Nat
  | .openParen => depth + 1
  | .closeParen => depth - 1
  | _ => depth

variable (depth line start : Nat) (t : Text)

theorem scan_nil : scan depth line start [] = .ok ⟨[], start⟩ := by
  rw [scan]

/-- Inside parentheses a line feed is skipped. -/
theorem scan_newline_inside {depth : Nat} (h : 0 < depth) :
    scan depth line start ('\n' :: t) = scan depth (line + 1) start t := by
  rw [scan, if_pos rfl, if_pos h]

/-- Outside of parentheses a line feed is a separator. -/
theorem scan_newline :
    scan 0 line start ('\n' :: t) =
      (scan 0 (line + 1) (line + 1) t).map fun r =>
        { r with items := ⟨start, .separator⟩ :: r.items } := by
  rw [scan, if_pos rfl, if_neg (Nat.lt_irrefl 0)]
  cases scan 0 (line + 1) (line + 1) t <;> rfl

theorem scan_blank {c : Char} (hline : c ≠ '\n') (hblank : isBlank c) :
    scan depth line start (c :: t) = scan depth line start t := by
  rw [scan, if_neg hline, if_pos hblank]

/-- A comment goes on to the end of its line. -/
theorem scan_comment :
    scan depth line start ('#' :: t) = scan depth line start (t.dropWhile (· ≠ '\n')) := by
  rw [scan, if_neg (by decide), if_neg (by decide), if_pos rfl]

section Tokens

variable {t} {c : Char} (hline : c ≠ '\n') (hblank : ¬ isBlank c) (hcomment : c ≠ '#')

include hline hblank hcomment

theorem scan_fault {fault : Fault} (hread : Token.read c t = .error fault) :
    scan depth line start (c :: t) = .error (.malformed line fault) := by
  rw [scan, if_neg hline, if_neg hblank, if_neg hcomment]
  split
  · next hx =>
    rw [hread] at hx
    cases hx
    rfl
  · next hx =>
    rw [hread] at hx
    cases hx

theorem scan_token {k : Token} {rest : Text} (hread : Token.read c t = .ok (k, rest)) :
    scan depth line start (c :: t) =
      (scan (depthAfter depth k) line line rest).map fun r =>
        { r with items := ⟨start, k⟩ :: r.items } := by
  rw [scan, if_neg hline, if_neg hblank, if_neg hcomment]
  split
  · next hx =>
    rw [hread] at hx
    cases hx
  · next hx =>
    rw [hread] at hx
    obtain ⟨rfl, rfl⟩ := Prod.mk.inj (Except.ok.inj hx)
    dsimp only
    -- only parentheses change the depth of what follows
    split
    · next r hs =>
      have hs : scan (depthAfter depth k) line line rest = .ok r := by cases k <;> exact hs
      rw [hs]
      rfl
    · next err hs =>
      have hs : scan (depthAfter depth k) line line rest = .error err := by cases k <;> exact hs
      rw [hs]
      rfl

end Tokens

/-! ## Induction -/

/-- What holds of a scan if it holds of what is scanned next: the text after a line feed, a blank, a
comment or a token. -/
theorem scan_induction {motive : Nat → Nat → Nat → Text → Prop}
    (nil : ∀ depth line start, motive depth line start [])
    (inside : ∀ depth line start t, 0 < depth → motive depth (line + 1) start t →
      motive depth line start ('\n' :: t))
    (newline : ∀ line start t, motive 0 (line + 1) (line + 1) t → motive 0 line start ('\n' :: t))
    (blank : ∀ depth line start c t, c ≠ '\n' → isBlank c → motive depth line start t →
      motive depth line start (c :: t))
    (comment : ∀ depth line start t, motive depth line start (t.dropWhile (· ≠ '\n')) →
      motive depth line start ('#' :: t))
    (fault : ∀ depth line start c t fault, c ≠ '\n' → ¬ isBlank c → c ≠ '#' →
      Token.read c t = .error fault → motive depth line start (c :: t))
    (token : ∀ depth line start c t k rest, c ≠ '\n' → ¬ isBlank c → c ≠ '#' →
      Token.read c t = .ok (k, rest) → motive (depthAfter depth k) line line rest →
      motive depth line start (c :: t)) (depth line start : Nat) (t : Text) :
    motive depth line start t :=
  match t with
  | [] => nil depth line start
  | c :: t =>
    have next (depth line start : Nat) (u : Text) (_ : u.length < t.length + 1) :
        motive depth line start u :=
      scan_induction nil inside newline blank comment fault token depth line start u
    have here := Nat.lt_succ_self t.length
    by
      by_cases hline : c = '\n'
      · subst hline
        cases depth with
        | zero => exact newline _ _ _ (next _ _ _ _ here)
        | succ depth => exact inside _ _ _ _ (Nat.succ_pos depth) (next _ _ _ _ here)
      · by_cases hblank : isBlank c
        · exact blank _ _ _ _ _ hline hblank (next _ _ _ _ here)
        · by_cases hcomment : c = '#'
          · subst hcomment
            exact comment _ _ _ _
              (next _ _ _ _ (Nat.lt_succ_of_le (List.dropWhile_suffix _).length_le))
          · cases hread : Token.read c t with
            | error f => exact fault _ _ _ _ _ _ hline hblank hcomment hread
            | ok r =>
              have hlength := Nat.lt_succ_of_le (Token.length_of_read hread)
              exact token _ _ _ _ _ _ _ hline hblank hcomment hread (next _ _ _ _ hlength)
termination_by t.length

end CalcDoc.Script
