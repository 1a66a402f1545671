import CalcDoc.Proofs.Grammar.Placement
import Mathlib

/-!
# Programs below one another

The program of two sources below one another is that of the first and then that of the second,
whose statements stand on later lines. Nothing is carried over from the first source: its
parentheses are balanced, and every statement has all levels of nesting.

- `DerivesProgram.depthAfterAll`: programs close the parentheses that they open, by induction on
  the derivation of their expressions.
- `readProgram_later`, `readProgram_append`: programs on later lines, and programs with more
  lexemes below.
- `Program.ofText_append`: the program of two sources below one another.
-/

namespace CalcDoc.Script

/-! ## Balanced parentheses -/

@[simp] theorem depthAfterAll_nil (depth : Nat) : depthAfterAll depth [] = depth := rfl

@[simp] theorem depthAfterAll_cons (depth : Nat) (k : Token) (ks : List Token) :
    depthAfterAll depth (k :: ks) = depthAfterAll (depthAfter depth k) ks := rfl

@[simp] theorem depthAfterAll_append (depth : Nat) (ks ls : List Token) :
    depthAfterAll depth (ks ++ ls) = depthAfterAll (depthAfterAll depth ks) ls :=
  List.foldl_append

/-- An expression closes the parentheses that it opens, and no others. -/
theorem Derives.depthAfterAll {φ : Phrase} {ts : List Token} (h : Derives φ ts) (depth : Nat) :
    depthAfterAll depth ts = depth := by
  induction h generalizing depth with
  | literal hv =>
    rename_i k v
    cases k <;> first | rfl | cases hv
  | paren _ ih => simp [depthAfter, ih]
  | call htrail _ ih => rcases htrail with rfl | rfl <;> simp [depthAfter, ih]
  | _ => simp_all [depthAfter]

theorem DerivesStatement.depthAfterAll {ls : List Lexeme} {s : Statement}
    (h : DerivesStatement ls s) (depth : Nat) : depthAfterAll depth (tokens ls) = depth := by
  cases h with
  | delete => rfl
  | assign he => simp [depthAfter, he.depthAfterAll]
  | augment he => simp [depthAfter, he.depthAfterAll]
  | eval he => exact he.depthAfterAll depth

theorem DerivesProgram.depthAfterAll {ls : List Lexeme} {p : Program} (h : DerivesProgram ls p)
    (depth : Nat) : depthAfterAll depth (tokens ls) = depth := by
  induction h with
  | nil => rfl
  | separator _ ih => simp [depthAfter, ih]
  | last hs => exact hs.depthAfterAll depth
  | statement hs _ ih => simp [depthAfter, hs.depthAfterAll, ih]

/-! ## The reader of programs at another place -/

/-- The program `d` lines further down. -/
def Program.later (d : Nat) (p : Program) : Program :=
  p.map (·.later d)

/-- The program `d` lines further down, or the error there. -/
def programLater (d : Nat) : Except Error Program → Except Error Program
  | .ok p => .ok (p.later d)
  | .error err => .error (err.later d)

theorem placed_below_nil (d : Nat) (ls : List Lexeme) : placed d [] ls = ls.map (·.later d) :=
  List.append_nil _

theorem placed_zero (below ls : List Lexeme) : placed 0 below ls = ls ++ below := by
  rw [placed, show (fun l : Lexeme => l.later 0) = id from rfl, List.map_id]

/-- A program on later lines is the same program there, and fails at the same lexeme. -/
theorem readProgram_later (d endLine : Nat) (ts : List Lexeme) :
    readProgram (endLine + d) (ts.map (·.later d)) = programLater d (readProgram endLine ts) := by
  have place : Place d endLine (endLine + d) [] := ⟨endsStatement_nil, fun _ => rfl⟩
  have statement (l : Lexeme) (ls : List Lexeme) :=
    carries_readStatement place (readers_carry place maxDepth) (l :: ls)
  have hne {l : Lexeme} (h : ∀ n, l = ⟨n, .separator⟩ → False) :
      (l.later d).token ≠ .separator :=
    show l.token ≠ .separator from ne_separator_of_not h
  simp only [placed_below_nil, List.map_cons] at statement
  fun_induction readProgram endLine ts with
  | case1 =>
    rw [List.map_nil, readProgram]
    rfl
  | case2 n rest ih =>
    rw [List.map_cons, Lexeme.later, readProgram]
    exact ih
  | case3 l rest hsep err hs =>
    have hlater := statement l rest
    rw [hs] at hlater
    exact readProgram_of_error (hne hsep) (hlater rfl)
  | case4 l rest hsep s hs =>
    have hlater := statement l rest
    rw [hs] at hlater
    exact readProgram_of_last (hne hsep) hlater
  | case5 l rest hsep s n rest' hs ss hss ih =>
    have hlater := statement l rest
    rw [hs, Carries, placed_below_nil] at hlater
    rw [hss] at ih
    refine (readProgram_of_separator (hne hsep) hlater).trans ?_
    show (readProgram (endLine + d) (rest'.map (·.later d))).map _ = _
    rw [ih]
    rfl
  | case6 l rest hsep s n rest' hs err hss ih =>
    have hlater := statement l rest
    rw [hs, Carries, placed_below_nil] at hlater
    rw [hss] at ih
    refine (readProgram_of_separator (hne hsep) hlater).trans ?_
    show (readProgram (endLine + d) (rest'.map (·.later d))).map _ = _
    rw [ih]
    rfl
  | case7 l rest hsep s l' rest' hnext hs =>
    have hlater := statement l rest
    rw [hs] at hlater
    exact readProgram_of_unended (hne hsep) (hne hnext) hlater

/-- The statements of a program stay as they are with other lexemes below, from which the rest is
read. -/
theorem readProgram_append {endLine endLine' n : Nat} {ts : List Lexeme} {p : Program}
    (h : readProgram endLine ts = .ok p) (ms : List Lexeme) :
    readProgram endLine' (ts ++ ⟨n, .separator⟩ :: ms) =
      (readProgram endLine' ms).map (p ++ ·) := by
  have place : Place 0 endLine endLine' (⟨n, .separator⟩ :: ms) :=
    ⟨endsStatement_separator n ms, nofun⟩
  have statement (l : Lexeme) (ls : List Lexeme) :=
    carries_readStatement place (readers_carry place maxDepth) (l :: ls)
  simp only [placed_zero] at statement
  fun_induction readProgram endLine ts generalizing p with
  | case1 =>
    cases h
    rw [List.nil_append, readProgram]
    cases readProgram endLine' ms <;> rfl
  | case2 i rest ih =>
    rw [List.cons_append, readProgram]
    exact ih h
  | case3 => cases h
  | case4 l rest hsep s hs =>
    cases h
    have hbelow := statement l rest
    rw [hs] at hbelow
    exact readProgram_of_separator (ne_separator_of_not hsep) hbelow
  | case5 l rest hsep s i rest' hs ss hss ih =>
    cases h
    have hbelow := statement l rest
    rw [hs, Carries, placed_zero] at hbelow
    refine (readProgram_of_separator (ne_separator_of_not hsep) hbelow).trans ?_
    show (readProgram endLine' (rest' ++ ⟨n, .separator⟩ :: ms)).map _ = _
    rw [ih hss]
    cases readProgram endLine' ms <;> rfl
  | case6 => cases h
  | case7 => cases h

/-! ## Sources below one another -/

namespace Program

/-- The program of a source with another one below it. -/
theorem ofText_joined {p : Text} {ss : Program} (hp : Program.ofText p = .ok ss) (q : Text) :
    Program.ofText (p ++ '\n' :: q) =
      (programLater (1 + p.count '\n') (Program.ofText q)).map (ss ++ ·) := by
  unfold Program.ofText Lexemes.ofText at hp ⊢
  cases hscan : scan 0 1 1 p with
  | error err =>
    rw [hscan] at hp
    cases hp
  | ok r =>
    rw [hscan] at hp
    have hread : readProgram r.endLine r.items = .ok ss := hp
    have hdepth := (derivesProgram_of_read hread).depthAfterAll 0
    rw [scan_append hscan hdepth q, scan_later]
    cases scan 0 1 1 q with
    | error err => rfl
    | ok r' =>
      show readProgram (r'.endLine + (1 + p.count '\n'))
        (r.items ++ ⟨r.endLine, .separator⟩ :: r'.items.map (·.later (1 + p.count '\n'))) = _
      rw [readProgram_append hread, readProgram_later]

/-- Programs are read line by line. Below a source that is a program, another source is read as it
is read alone, some lines further down: it is a program if it is one alone, with its own statements
behind those of the first source; and if it is none alone, then it fails for the same reason. -/
theorem ofText_append (p q : Text) (ss : Program) (hp : Program.ofText p = .ok ss) :
    ((∃ rs, Program.ofText (p ++ '\n' :: q) = .ok rs) ↔ ∃ qs, Program.ofText q = .ok qs) ∧
    (∀ qs, Program.ofText q = .ok qs →
      Program.ofText (p ++ '\n' :: q) = .ok (ss ++ qs.later (1 + p.count '\n'))) ∧
    ∀ line fault, Program.ofText q = .error (.malformed line fault) →
      Program.ofText (p ++ '\n' :: q) =
        .error (.malformed (line + (1 + p.count '\n')) fault) := by
  rw [ofText_joined hp q]
  refine ⟨?_, ?_, ?_⟩
  · constructor
    · rintro ⟨rs, hrs⟩
      cases hq : Program.ofText q with
      | ok qs => exact ⟨qs, rfl⟩
      | error err =>
        rw [hq] at hrs
        cases hrs
    · rintro ⟨qs, hqs⟩
      rw [hqs]
      exact ⟨_, rfl⟩
  · intro qs hqs
    rw [hqs]
    rfl
  · intro line fault hq
    rw [hq]
    rfl

/-- A statement of two lines in parentheses, and below it a statement that deletes, or one that
lacks a parenthesis. -/
theorem ofText_append_of_two_lines :
    Program.ofText "x = (1 +\n2) # one".toList =
      .ok [⟨1, .assign "x" (.arith .add (.literal (.int 1)) (.literal (.int 2)))⟩] ∧
    Program.ofText ("x = (1 +\n2) # one".toList ++ '\n' :: "\ndel x".toList) =
      .ok [⟨1, .assign "x" (.arith .add (.literal (.int 1)) (.literal (.int 2)))⟩,
        ⟨4, .delete "x"⟩] ∧
    Program.ofText ("x = (1 +\n2) # one".toList ++ '\n' :: "(x".toList) =
      .error (.malformed 3 (.expectedCloseParen none)) := by
  have hp : Program.ofText "x = (1 +\n2) # one".toList =
      .ok [⟨1, .assign "x" (.arith .add (.literal (.int 1)) (.literal (.int 2)))⟩] := by
    cbv
  have hq : Program.ofText "\ndel x".toList = .ok [⟨2, .delete "x"⟩] := by cbv
  have herr : Program.ofText "(x".toList = .error (.malformed 1 (.expectedCloseParen none)) := by
    cbv
  exact ⟨hp, (ofText_append _ _ _ hp).2.1 _ hq, (ofText_append _ _ _ hp).2.2 _ _ herr⟩

end Program

end CalcDoc.Script
