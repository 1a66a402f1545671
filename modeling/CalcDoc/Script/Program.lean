import CalcDoc.Script.Progress

/-!
# From text to programs

- `readProgram`: the statements of a source, with separators between them.
- `Program.ofText`: the program of a source, or why it is none.
-/

namespace CalcDoc.Script

/-- The statements of a source, one or more separators between neighbours and any number of them
at both ends. -/
def readProgram (endLine : Nat) (ts : List Lexeme) : Except Error Program :=
  match ts with
  | [] => .ok []
  | ⟨_, .separator⟩ :: rest => readProgram endLine rest
  | l :: rest =>
    match _h : readStatement endLine (readers endLine maxDepth) (l :: rest) with
    | .error e => .error e
    | .ok (s, []) => .ok [s]
    | .ok (s, ⟨_, .separator⟩ :: rest') =>
      match readProgram endLine rest' with
      | .ok ss => .ok (s :: ss)
      | .error e => .error e
    | .ok (_, l' :: _) => .error (.malformed l'.line (.expectedEndOfStatement (some l'.token)))
termination_by ts.length
decreasing_by
  · simp
  · have := takes_readStatement (readers_take endLine maxDepth) _ _ _ _h
    have := this.2
    simp only [List.length_cons] at this ⊢
    omega

/-- The program of a source. -/
def Program.ofText (source : Text) : Except Error Program :=
  match Lexemes.ofText source with
  | .ok ts => readProgram ts.endLine ts.items
  | .error e => .error e

end CalcDoc.Script
