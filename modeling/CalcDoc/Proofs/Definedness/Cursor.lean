import CalcDoc.Script.Program

/-!
# Reading with a cursor

The reader of programs as a machine: a cursor moves over the lexemes and counts the levels of
nesting that it is in. A level is entered one at a time and left when the expression that needed it
is complete, so the readers of chains leave all levels of their operands at once.

Its steps are partial. A lexeme is looked up by its index, which has to be in range, and levels are
subtracted from the depth, which has to be at least as great. The machine is undefined where one of
them is, and also where it does not come to an end.

- `Cursor`, `Machine`: the state, and the steps on it.
- `Lexemes.expression`, `Lexemes.statement`, `Lexemes.program`: the reader.
- `Program.ofLexemes?`: the program of some lexemes, as the machine reads it.
-/

namespace CalcDoc.Script

/-- Where a machine is: the index of the next lexeme, and the levels of nesting around it. -/
structure Cursor where
  pos : Nat
  depth : Nat

/-- Steps on a cursor, which fail with an error or are undefined. -/
abbrev Machine (α : Type) := StateT Cursor (ExceptT Error Option) α

/-- The lexemes with their lines, and the end as the last of them. -/
def Lexemes.entries (ls : Lexemes) : List (Nat × Option Token) :=
  ls.items.map (fun l => (l.line, some l.token)) ++ [(ls.endLine, none)]

/-- The difference of two numbers that is not negative. -/
def sub? (a b : Nat) : Option Nat :=
  if b ≤ a then some (a - b) else none

namespace Machine

/-- A step that is undefined where its value is. -/
def partly {α : Type} (a : Option α) : Machine α :=
  fun c => a.map fun a => .ok (a, c)

section Lexemes

variable (ls : Lexemes)

/-! ## Steps of the cursor -/

/-- The entry some places behind the cursor, and no later one than the last. -/
def entryAt (offset : Nat) : Machine (Nat × Option Token) := do
  let last ← partly (sub? ls.entries.length 1)
  partly ls.entries[min ((← get).pos + offset) last]?

/-- The token at the cursor; none at the end. -/
def peek : Machine (Option Token) := do
  return (← entryAt ls 0).2

/-- The token behind the one at the cursor. -/
def peekBehind : Machine (Option Token) := do
  return (← entryAt ls 1).2

/-- The line of the cursor. -/
def line : Machine Nat := do
  return (← entryAt ls 0).1

/-- The token at the cursor, which moves on if it is not at the end. -/
def advance : Machine (Option Token) := do
  let k ← peek ls
  let last ← partly (sub? ls.entries.length 1)
  modify fun c => if c.pos < last then { c with pos := c.pos + 1 } else c
  return k

/-- Fails at the cursor. -/
def fail {α : Type} (fault : Fault) : Machine α := do
  throw (.malformed (← line ls) fault)

/-- Goes one level further in. -/
def enter : Machine Unit := do
  modify fun c => { c with depth := c.depth + 1 }
  if maxDepth < (← get).depth then fail ls .tooDeep

/-- Goes some levels out. -/
def leave (levels : Nat) : Machine Unit := do
  let depth ← partly (sub? (← get).depth levels)
  modify fun c => { c with depth := depth }

/-- The closing parenthesis. -/
def close : Machine Unit := do
  match ← peek ls with
  | some .closeParen => let _ ← advance ls
  | k => fail ls (.expectedCloseParen k)

end Lexemes

end Machine

namespace Lexemes

open Machine

/-! ## Expressions -/

mutual

/-- A whole expression. -/
def expression (ls : Lexemes) : Machine Expr := do
  enter ls
  let e ← ls |>.chain .either
  leave 1
  return e
partial_fixpoint

/-- A chain of operators. -/
def chain (ls : Lexemes) (c : Chain) : Machine Expr := do
  let left ← ls |>.operand c
  ls |>.more c left 0
partial_fixpoint

/-- An operand of a chain. -/
def operand (ls : Lexemes) (c : Chain) : Machine Expr :=
  match c with
  | .either => ls |>.chain .both
  | .both => ls |>.negation
  | .sum => ls |>.chain .product
  | .product => ls |>.signed
partial_fixpoint

/-- The rest of a chain, whose operands so far are `levels` deep. -/
def more (ls : Lexemes) (c : Chain) (left : Expr) (levels : Nat) : Machine Expr := do
  match (← peek ls).bind c.join? with
  | none =>
    leave levels
    return left
  | some join =>
    let _ ← advance ls
    enter ls
    let right ← ls |>.operand c
    ls |>.more c (join left right) (levels + 1)
partial_fixpoint

/-- A comparison with any `not` in front. -/
def negation (ls : Lexemes) : Machine Expr := do
  match ← peek ls with
  | some .not =>
    let _ ← advance ls
    enter ls
    let e ← ls |>.negation
    leave 1
    return .not e
  | _ => ls |>.comparison
partial_fixpoint

/-- A sum, or one comparison of two sums. -/
def comparison (ls : Lexemes) : Machine Expr := do
  let left ← ls |>.chain .sum
  match (← peek ls).bind Token.compare? with
  | none => return left
  | some op =>
    let _ ← advance ls
    let right ← ls |>.chain .sum
    match (← peek ls).bind Token.compare? with
    | none => return .compare op left right
    | some _ => fail ls .chainedComparison
partial_fixpoint

/-- A power with any signs in front. -/
def signed (ls : Lexemes) : Machine Expr := do
  match (← peek ls).bind Token.sign? with
  | none => ls |>.power
  | some op =>
    let _ ← advance ls
    enter ls
    let e ← ls |>.signed
    leave 1
    return .sign op e
partial_fixpoint

/-- A power, whose exponent may have a sign and be a power itself. -/
def power (ls : Lexemes) : Machine Expr := do
  let base ← ls |>.call
  match ← peek ls with
  | some (.arith .pow) =>
    let _ ← advance ls
    enter ls
    let exponent ← ls |>.signed
    leave 1
    return .arith .pow base exponent
  | _ => return base
partial_fixpoint

/-- A call, or an atom. -/
def call (ls : Lexemes) : Machine Expr := do
  match ← peek ls, ← peekBehind ls with
  | some (.name f), some .openParen =>
    let _ ← advance ls
    let _ ← advance ls
    match ← peek ls with
    | some .closeParen =>
      close ls
      return .call f []
    | _ =>
      let args ← ls |>.arguments []
      close ls
      return .call f args
  | _, _ => ls |>.atom
partial_fixpoint

/-- One or more arguments behind those that have been read. -/
def arguments (ls : Lexemes) (args : List Expr) : Machine (List Expr) := do
  let e ← ls |>.expression
  match ← peek ls with
  | some .comma =>
    let _ ← advance ls
    match ← peek ls with
    | some .closeParen => return args ++ [e]
    | _ => ls |>.arguments (args ++ [e])
  | _ => return args ++ [e]
partial_fixpoint

/-- A literal, a name or an expression in parentheses. -/
def atom (ls : Lexemes) : Machine Expr := do
  match ← advance ls with
  | some (.name x) => return .name x
  | some .openParen =>
    let e ← ls |>.expression
    close ls
    return e
  | k =>
    match k.bind Token.literal? with
    | some v => return .literal v
    | none => fail ls (.expectedExpression k)
partial_fixpoint

end

/-! ## Statements and programs -/

/-- A statement. -/
def statement (ls : Lexemes) : Machine Statement := do
  let line ← line ls
  match ← peek ls, ← peekBehind ls with
  | some .del, _ =>
    let _ ← advance ls
    match ← advance ls with
    | some (.name x) => return ⟨line, .delete x⟩
    | k => fail ls (.expectedNameAfterDel k)
  | some (.name x), some .assign =>
    let _ ← advance ls
    let _ ← advance ls
    let e ← ls.expression
    return ⟨line, .assign x e⟩
  | some (.name x), some (.augment op) =>
    let _ ← advance ls
    let _ ← advance ls
    let e ← ls.expression
    return ⟨line, .augment x op e⟩
  | _, _ =>
    let e ← ls.expression
    match ← peek ls with
    | some .assign | some (.augment _) => fail ls .notAssignable
    | _ => return ⟨line, .eval e⟩

/-- The statements behind those that have been read. -/
def program (ls : Lexemes) (statements : Program) : Machine Program := do
  match ← peek ls with
  | some .separator =>
    let _ ← advance ls
    ls |>.program statements
  | none => return statements
  | _ =>
    let s ← ls.statement
    match ← peek ls with
    | some .separator | none => ls |>.program (statements ++ [s])
    | k => fail ls (.expectedEndOfStatement k)
partial_fixpoint

end Lexemes

namespace Machine

/-! ## Runs -/

/-- What a machine gives from a cursor on, if it is defined there: a value and the cursor behind it,
or an error. -/
def run {α : Type} (m : Machine α) (c : Cursor) : Option (Except Error (α × Cursor)) :=
  m c

theorem run_pure {α : Type} (a : α) (c : Cursor) : run (pure a) c = some (.ok (a, c)) := rfl

theorem run_bind {α β : Type} {m : Machine α} {c d : Cursor} {a : α}
    (h : run m c = some (.ok (a, d))) (k : α → Machine β) : run (m >>= k) c = run (k a) d := by
  show Option.bind (run m c) _ = _
  rw [h]
  rfl

theorem run_bind_error {α β : Type} {m : Machine α} {c : Cursor} {err : Error}
    (h : run m c = some (.error err)) (k : α → Machine β) :
    run (m >>= k) c = some (.error err) := by
  show Option.bind (run m c) _ = _
  rw [h]
  rfl

/-- The cursor before the lexemes `ts`, which are an end of all lexemes. -/
def cursor (ls : Lexemes) (ts : List Lexeme) (depth : Nat) : Cursor :=
  ⟨ls.items.length - ts.length, depth⟩

theorem getElem?_entries (endLine offset : Nat) (ts : List Lexeme) :
    (ts.map (fun l => (l.line, some l.token)) ++ [(endLine, none)])[min offset ts.length]? =
      some (nextLine endLine (ts.drop offset), nextToken? (ts.drop offset)) := by
  induction ts generalizing offset with
  | nil => simp [nextLine, nextToken?]
  | cons l ts ih =>
    cases offset with
    | zero => rw [Nat.zero_min]; rfl
    | succ offset =>
      rw [List.length_cons, ← Nat.succ_eq_add_one, ← Nat.succ_eq_add_one, Nat.succ_min_succ]
      exact ih offset

theorem sub?_entries (ls : Lexemes) : sub? ls.entries.length 1 = some ls.items.length := by
  simp [sub?, Lexemes.entries]

section Anywhere

variable {ls : Lexemes} {c : Cursor}

theorem run_entryAt_of_getElem? {offset : Nat} {entry : Nat × Option Token}
    (h : ls.entries[min (c.pos + offset) ls.items.length]? = some entry) :
    run (entryAt ls offset) c = some (.ok (entry, c)) := by
  show Option.bind (Option.map _ (sub? ls.entries.length 1)) _ = _
  rw [sub?_entries]
  show Option.map _ ls.entries[min (c.pos + offset) ls.items.length]? = _
  rw [h]
  rfl

/-- The cursor moves on over the token it looks at, unless it is at the end. -/
theorem run_advance_of_peek {k : Option Token} (h : run (peek ls) c = some (.ok (k, c))) :
    run (advance ls) c =
      some (.ok (k, if c.pos < ls.items.length then { c with pos := c.pos + 1 } else c)) := by
  refine (run_bind h _).trans ?_
  show Option.bind (Option.map _ (sub? ls.entries.length 1)) _ = _
  rw [sub?_entries]
  rfl

theorem run_enter (ls : Lexemes) (h : c.depth < maxDepth) :
    run (enter ls) c = some (.ok ((), { c with depth := c.depth + 1 })) := by
  show run (if maxDepth < c.depth + 1 then fail ls .tooDeep else pure ()) _ = _
  rw [if_neg (Nat.not_lt.2 h)]
  rfl

theorem run_leave {levels : Nat} (h : levels ≤ c.depth) :
    run (leave levels) c = some (.ok ((), { c with depth := c.depth - levels })) := by
  show Option.bind (Option.map _ (sub? c.depth levels)) _ = _
  rw [sub?, if_pos h]
  rfl

end Anywhere

section Steps

variable {ls : Lexemes} {ts : List Lexeme} (hts : ts <:+ ls.items) (depth : Nat)

include hts

/-- The lexemes of a source and its end are never left. -/
theorem run_entryAt (offset : Nat) :
    run (entryAt ls offset) (cursor ls ts depth) =
      some (.ok ((nextLine ls.endLine (ts.drop offset), nextToken? (ts.drop offset)),
        cursor ls ts depth)) := by
  obtain ⟨before, hitems⟩ := hts
  have hindex : min (ls.items.length - ts.length + offset) ls.items.length =
      before.length + min offset ts.length := by
    rw [← hitems, List.length_append]
    omega
  refine run_entryAt_of_getElem? ?_
  show ls.entries[min (ls.items.length - ts.length + offset) ls.items.length]? = _
  rw [hindex, Lexemes.entries, ← hitems, List.map_append, List.append_assoc,
    List.getElem?_append_right (by simp), List.length_map, Nat.add_sub_cancel_left]
  exact getElem?_entries ls.endLine offset ts

theorem run_peek : run (peek ls) (cursor ls ts depth) =
    some (.ok (nextToken? ts, cursor ls ts depth)) :=
  run_bind (run_entryAt hts depth 0) _

theorem run_peekBehind : run (peekBehind ls) (cursor ls ts depth) =
    some (.ok (nextToken? ts.tail, cursor ls ts depth)) := by
  rw [← List.drop_one]
  exact run_bind (run_entryAt hts depth 1) _

theorem run_line : run (line ls) (cursor ls ts depth) =
    some (.ok (nextLine ls.endLine ts, cursor ls ts depth)) :=
  run_bind (run_entryAt hts depth 0) _

theorem run_fail {α : Type} (fault : Fault) : run (fail (α := α) ls fault) (cursor ls ts depth) =
    some (.error (.malformed (nextLine ls.endLine ts) fault)) :=
  run_bind (run_line hts depth) _

/-- No level is left. -/
theorem run_enter_deepest :
    run (enter ls) (cursor ls ts maxDepth) =
      some (.error (.malformed (nextLine ls.endLine ts) .tooDeep)) := by
  show run (if maxDepth < maxDepth + 1 then fail ls .tooDeep else pure ()) _ = _
  rw [if_pos (Nat.lt_succ_self maxDepth)]
  exact run_fail hts (maxDepth + 1) .tooDeep

theorem run_advance : run (advance ls) (cursor ls ts depth) =
    some (.ok (nextToken? ts, cursor ls ts.tail depth)) := by
  have hcursor : (if (cursor ls ts depth).pos < ls.items.length then
      { cursor ls ts depth with pos := (cursor ls ts depth).pos + 1 }
      else cursor ls ts depth) = cursor ls ts.tail depth := by
    have hlength := hts.length_le
    cases ts with
    | nil => exact if_neg (Nat.lt_irrefl _)
    | cons l ts =>
      rw [List.length_cons] at hlength
      refine (if_pos (show ls.items.length - (ts.length + 1) < ls.items.length by omega)).trans ?_
      show Cursor.mk (ls.items.length - (ts.length + 1) + 1) depth =
        ⟨ls.items.length - ts.length, _⟩
      congr 1
      omega
  rw [run_advance_of_peek (run_peek hts depth), hcursor]

end Steps

end Machine

/-- The program of some lexemes, as the machine reads it. -/
def Program.ofLexemes? (ls : Lexemes) : Option (Except Error Program) :=
  (Machine.run (ls.program []) ⟨0, 0⟩).map fun r => r.map Prod.fst

end CalcDoc.Script
