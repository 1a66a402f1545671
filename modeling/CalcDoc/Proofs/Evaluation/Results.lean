import CalcDoc.Script.Evaluation

/-!
# What every run keeps

A property of values that all operators keep passes from the literals of a program and the names it
starts with to the names it leaves; and a property of errors that all operators keep holds of the
error that stops it. Both are shown once here, by induction over expressions and statements.

- `Results`: what holds of a result, be it a value or an error.
- `Expr.literals`, `Action.literals`, `Program.literals`: the values that are written in a program.
- `Operations`: the properties that the operators and functions keep.
- `Operations.eval`, `Operations.action`, `Operations.run`: what they say of expressions, of
  statements and of whole programs.
-/

namespace CalcDoc.Script

/-- What holds of a result: `P` of what is computed, or `E` of the error. -/
def Results {α : Type} (P : α → Prop) (E : Error → Prop) : Except Error α → Prop
  | .ok a => P a
  | .error err => E err

/-! ## The values that are written in a program -/

mutual

/-- The literals of an expression, from left to right. -/
def Expr.literals : Expr → List Value
  | .literal v => [v]
  | .name _ => []
  | .sign _ e | .not e => e.literals
  | .arith _ l r | .compare _ l r | .and l r | .or l r => l.literals ++ r.literals
  | .call _ args => Expr.literalsOf args

/-- The literals of some expressions. -/
def Expr.literalsOf : List Expr → List Value
  | [] => []
  | e :: es => e.literals ++ Expr.literalsOf es

end

/-- The literals of an action. -/
def Action.literals : Action → List Value
  | .assign _ e | .augment _ _ e | .eval e => e.literals
  | .delete _ => []

/-- The literals of a program. -/
def Program.literals (p : Program) : List Value :=
  p.flatMap fun s => s.action.literals

/-! ## Expressions -/

/-- The operators and functions turn values with `P` into values with `P`, or fail with errors that
have `E`. -/
structure Operations (P : Value → Prop) (E : Error → Prop) : Prop where
  bool : ∀ b, P (.bool b)
  sign : ∀ op a, P a → Results P E (a.sign op)
  arith : ∀ op a b, P a → P b → Results P E (a.arith op b)
  compare : ∀ op a b, P a → P b → Results P E (a.compare op b)
  call : ∀ f vs, (∀ v ∈ vs, P v) → Results P E (callFunction f vs)
  undefined : ∀ x, E (.undefinedName x)

namespace Operations

variable {P : Value → Prop} {E : Error → Prop} {ns : Namespace}

theorem read (ops : Operations P E) (hns : ∀ p ∈ ns, P p.2) (x : String) :
    Results P E (Namespace.read ns x) := by
  unfold Namespace.read
  cases hx : Table.get? ns x with
  | none => exact ops.undefined x
  | some v => exact hns _ (Table.mem_of_get? hx)

mutual

/-- The value of an expression has what its literals and its names have. -/
theorem eval (ops : Operations P E) (hns : ∀ p ∈ ns, P p.2) :
    ∀ e : Expr, (∀ v ∈ e.literals, P v) → Results P E (e.eval ns)
  | .literal v, h => h v (List.mem_singleton_self v)
  | .name x, _ => ops.read hns x
  | .sign op e, h => by
    rw [Expr.eval]
    match e.eval ns, ops.eval hns e h with
    | .ok v, hv => exact ops.sign op v hv
    | .error _, herr => exact herr
  | .not e, h => by
    rw [Expr.eval]
    match e.eval ns, ops.eval hns e h with
    | .ok v, _ => exact ops.bool (!v.truthy)
    | .error _, herr => exact herr
  | .arith op l r, h => by
    obtain ⟨hl, hr⟩ := List.forall_mem_append.1 h
    rw [Expr.eval]
    match l.eval ns, ops.eval hns l hl, r.eval ns, ops.eval hns r hr with
    | .ok a, ha, .ok b, hb => exact ops.arith op a b ha hb
    | .ok _, _, .error _, herr => exact herr
    | .error _, herr, _, _ => exact herr
  | .compare op l r, h => by
    obtain ⟨hl, hr⟩ := List.forall_mem_append.1 h
    rw [Expr.eval]
    match l.eval ns, ops.eval hns l hl, r.eval ns, ops.eval hns r hr with
    | .ok a, ha, .ok b, hb => exact ops.compare op a b ha hb
    | .ok _, _, .error _, herr => exact herr
    | .error _, herr, _, _ => exact herr
  | .and l r, h => by
    obtain ⟨hl, hr⟩ := List.forall_mem_append.1 h
    rw [Expr.eval]
    match l.eval ns, ops.eval hns l hl with
    | .ok a, ha =>
      dsimp only
      split
      · exact ops.eval hns r hr
      · exact ha
    | .error _, herr => exact herr
  | .or l r, h => by
    obtain ⟨hl, hr⟩ := List.forall_mem_append.1 h
    rw [Expr.eval]
    match l.eval ns, ops.eval hns l hl with
    | .ok a, ha =>
      dsimp only
      split
      · exact ha
      · exact ops.eval hns r hr
    | .error _, herr => exact herr
  | .call f args, h => by
    rw [Expr.eval]
    match Expr.evalAll ns args, ops.evalAll hns args h with
    | .ok vs, hvs => exact ops.call f vs hvs
    | .error _, herr => exact herr

/-- So do the values of some expressions. -/
theorem evalAll (ops : Operations P E) (hns : ∀ p ∈ ns, P p.2) :
    ∀ es : List Expr, (∀ v ∈ Expr.literalsOf es, P v) →
      Results (fun vs => ∀ v ∈ vs, P v) E (Expr.evalAll ns es)
  | [], _ => fun _ hv => absurd hv List.not_mem_nil
  | e :: es, h => by
    obtain ⟨he, hes⟩ := List.forall_mem_append.1 h
    rw [Expr.evalAll]
    match e.eval ns, ops.eval hns e he, Expr.evalAll ns es, ops.evalAll hns es hes with
    | .ok v, hv, .ok vs, hvs => exact List.forall_mem_cons.2 ⟨hv, hvs⟩
    | .ok _, _, .error _, herr => exact herr
    | .error _, herr, _, _ => exact herr

end

/-! ## Statements and programs -/

/-- The names after a statement have what its literals and the names before it have. -/
theorem action (ops : Operations P E) (hns : ∀ p ∈ ns, P p.2) (a : Action)
    (h : ∀ v ∈ a.literals, P v) :
    Results (fun ns' : Namespace => ∀ p ∈ ns', P p.2) E (a.run ns) := by
  have insert {x : String} {v : Value} (hv : P v) : ∀ p ∈ Table.insert ns x v, P p.2 := by
    intro p hp
    rcases Table.mem_insert hp with rfl | hp
    · exact hv
    · exact hns p hp
  cases a with
  | assign x e =>
    rw [Action.run]
    match e.eval ns, ops.eval hns e h with
    | .ok v, hv => exact insert hv
    | .error _, herr => exact herr
  | augment x op e =>
    rw [Action.run]
    match Namespace.read ns x, ops.read hns x, e.eval ns, ops.eval hns e h with
    | .ok a, ha, .ok b, hb =>
      dsimp only
      match a.arith op b, ops.arith op a b ha hb with
      | .ok v, hv => exact insert hv
      | .error _, herr => exact herr
    | .ok _, _, .error _, herr => exact herr
    | .error _, herr, _, _ => exact herr
  | delete x =>
    rw [Action.run]
    match Namespace.read ns x, ops.read hns x with
    | .ok _, _ => exact fun p hp => hns p (Table.mem_of_mem_erase hp)
    | .error _, herr => exact herr
  | eval e =>
    rw [Action.run]
    match e.eval ns, ops.eval hns e h with
    | .ok _, _ => exact hns
    | .error _, herr => exact herr

/-- The names that a program leaves have what its literals and the names before it have, whether it
comes to its end or fails; and the error has what errors of operators have. -/
theorem run (ops : Operations P E) (hns : ∀ p ∈ ns, P p.2) (p : Program)
    (h : ∀ v ∈ p.literals, P v) :
    (∀ q ∈ (p.run ns).names, P q.2) ∧ ∀ err, (p.run ns).error? = some err → E err := by
  induction p generalizing ns with
  | nil => exact ⟨hns, fun err herr => by cases herr⟩
  | cons s p ih =>
    obtain ⟨hs, hp⟩ := List.forall_mem_append.1 h
    rw [Program.run]
    match s.action.run ns, ops.action hns s.action hs with
    | .ok ns', hns' => exact ih hns' hp
    | .error err, herr =>
      refine ⟨hns, ?_⟩
      rintro _ ⟨⟩
      exact herr

end Operations

end CalcDoc.Script
