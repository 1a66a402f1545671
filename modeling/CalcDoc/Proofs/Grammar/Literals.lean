import CalcDoc.Proofs.Evaluation.Results
import CalcDoc.Proofs.Grammar.Derivation

/-!
# Where the literals of a program come from

A program has no literals but those that stand among its tokens.

- `Phrase.literals`: the literals of an expression, or of the arguments of a call.
- `Derives.exists_literal`, `DerivesStatement.exists_literal`, `DerivesProgram.exists_literal`: each
  of them is the value of a token.
-/

namespace CalcDoc.Script

/-- The literals of an expression, or of the arguments of a call. -/
def Phrase.literals : Phrase → List Value
  | .expr _ e => e.literals
  | .arguments es => Expr.literalsOf es

/-- Every literal of an expression is the value of one of its tokens. -/
theorem Derives.exists_literal {φ : Phrase} {ts : List Token} (h : Derives φ ts) :
    ∀ v ∈ φ.literals, ∃ k ∈ ts, k.literal? = some v := by
  induction h with
  | literal hv =>
    intro v hmem
    obtain rfl := List.mem_singleton.1 hmem
    exact ⟨_, List.mem_singleton_self _, hv⟩
  | _ => grind [Phrase.literals, Expr.literals, Expr.literalsOf]

theorem DerivesStatement.exists_literal {ls : List Lexeme} {s : Statement}
    (h : DerivesStatement ls s) :
    ∀ v ∈ s.action.literals, ∃ l ∈ ls, l.token.literal? = some v := by
  have inside {e : Expr} {ms : List Lexeme} (he : Derives (.expr .either e) (tokens ms)) :
      ∀ v ∈ e.literals, ∃ l ∈ ms, l.token.literal? = some v := by
    intro v hv
    obtain ⟨k, hk, hkv⟩ := he.exists_literal v hv
    obtain ⟨l, hl, rfl⟩ := List.mem_map.1 hk
    exact ⟨l, hl, hkv⟩
  intro v hv
  cases h with
  | delete => cases hv
  | assign he =>
    obtain ⟨l, hl, hlv⟩ := inside he v hv
    exact ⟨l, List.mem_cons_of_mem _ (List.mem_cons_of_mem _ hl), hlv⟩
  | augment he =>
    obtain ⟨l, hl, hlv⟩ := inside he v hv
    exact ⟨l, List.mem_cons_of_mem _ (List.mem_cons_of_mem _ hl), hlv⟩
  | eval he => exact inside he v hv

/-- Every literal of a program is the value of one of its tokens. -/
theorem DerivesProgram.exists_literal {ls : List Lexeme} {p : Program} (h : DerivesProgram ls p) :
    ∀ v ∈ p.literals, ∃ l ∈ ls, l.token.literal? = some v := by
  induction h with
  | nil =>
    intro v hv
    cases hv
  | separator _ ih =>
    intro v hv
    obtain ⟨l, hl, hlv⟩ := ih v hv
    exact ⟨l, List.mem_cons_of_mem _ hl, hlv⟩
  | last hs =>
    intro v hv
    rw [Program.literals, List.flatMap_cons, List.flatMap_nil, List.append_nil] at hv
    exact hs.exists_literal v hv
  | statement hs _ ih =>
    intro v hv
    rcases List.mem_append.1 hv with hv | hv
    · obtain ⟨l, hl, hlv⟩ := hs.exists_literal v hv
      exact ⟨l, List.mem_append_left _ hl, hlv⟩
    · obtain ⟨l, hl, hlv⟩ := ih v hv
      exact ⟨l, List.mem_append_right _ (List.mem_cons_of_mem _ hl), hlv⟩

end CalcDoc.Script
