import CalcDoc.Proofs.Definedness.Operators
import CalcDoc.Proofs.Definedness.Reading
import CalcDoc.Proofs.Definedness.Slices

/-!
# Every execution is defined

The execution of a source with all its partial operations: the source is read in slices, its
lexemes with a cursor, and its expressions are evaluated with the partial operators. It is defined
for every source and all names, and does what the running of sources does.

- `Expr.eval?`, `Action.run?`, `Program.run?`: the evaluation of expressions and statements.
- `runSource?`: the execution of a source.
- `Expr.eval?_eq`: evaluation is defined, by induction on the expression.
- `runSource?_eq`: so is execution.
-/

namespace CalcDoc.Script

/-- The value of the function that a name calls. -/
def callFunction? (f : String) (args : List Value) : Partly Value :=
  match Builtin.ofName? f with
  | some b => b.result? args
  | none => total (.error (.unknownFunction f))

mutual

/-- The value of an expression. -/
def Expr.eval? (ns : Namespace) : Expr → Partly Value
  | .literal v => return v
  | .name x => total (Namespace.read ns x)
  | .sign op e => do
    let a ← e.eval? ns
    a.sign? op
  | .not e => do
    let a ← e.eval? ns
    return .bool (!a.truthy)
  | .arith op l r => do
    let a ← l.eval? ns
    let b ← r.eval? ns
    a.binary? (.arith op) b
  | .compare op l r => do
    let a ← l.eval? ns
    let b ← r.eval? ns
    a.binary? (.compare op) b
  | .and l r => do
    let a ← l.eval? ns
    if a.truthy then r.eval? ns else return a
  | .or l r => do
    let a ← l.eval? ns
    if a.truthy then return a else r.eval? ns
  | .call f args => do
    let values ← Expr.evalAll? ns args
    callFunction? f values

/-- The values of some expressions, from left to right. -/
def Expr.evalAll? (ns : Namespace) : List Expr → Partly (List Value)
  | [] => return []
  | e :: es => do
    let v ← e.eval? ns
    let vs ← Expr.evalAll? ns es
    return v :: vs

end

/-- The namespace after an action. -/
def Action.run? (ns : Namespace) : Action → Partly Namespace
  | .assign x e => do
    let v ← e.eval? ns
    return Table.insert ns x v
  | .augment x op e => do
    let a ← total (Namespace.read ns x)
    let b ← e.eval? ns
    let v ← a.binary? (.arith op) b
    return Table.insert ns x v
  | .delete x => do
    let _ ← total (Namespace.read ns x)
    return Table.erase ns x
  | .eval e => do
    let _ ← e.eval? ns
    return ns

/-- The namespace after the statements of a program, up to the first that fails. -/
def Program.run? (ns : Namespace) : Program → Option Outcome
  | [] => some ⟨ns, none⟩
  | s :: ss => do
    match ← (s.action.run? ns).run with
    | .ok ns' => Program.run? ns' ss
    | .error err => some ⟨ns, some err⟩

/-- The program of a source. -/
def Program.ofText? (source : Text) : Option (Except Error Program) := do
  match ← Lexemes.ofText? source with
  | .ok ls => Program.ofLexemes? ls
  | .error err => some (.error err)

/-- The namespace after the program of a source. -/
def runSource? (ns : Namespace) (source : Text) : Option Outcome := do
  match ← Program.ofText? source with
  | .ok p => Program.run? ns p
  | .error err => some ⟨ns, some err⟩

/-! ## Evaluation -/

theorem bind_total {α β : Type} (r : Except Error α) (k : α → Partly β) :
    (total r >>= k) = match r with | .ok a => k a | .error err => total (.error err) := by
  cases r <;> rfl

theorem callFunction?_eq (f : String) (args : List Value) :
    callFunction? f args = total (callFunction f args) := by
  unfold callFunction? callFunction
  cases Builtin.ofName? f with
  | none => rfl
  | some b => exact b.result?_eq args

mutual

/-- The evaluation of an expression is defined. -/
theorem Expr.eval?_eq (ns : Namespace) : ∀ e : Expr, e.eval? ns = total (e.eval ns)
  | .literal v => by rw [Expr.eval?, Expr.eval]; rfl
  | .name x => by rw [Expr.eval?, Expr.eval]
  | .sign op e => by
    rw [Expr.eval?, Expr.eval, Expr.eval?_eq ns e, bind_total]
    cases e.eval ns with
    | ok a => exact a.sign?_eq op
    | error err => rfl
  | .not e => by
    rw [Expr.eval?, Expr.eval, Expr.eval?_eq ns e, bind_total]
    cases e.eval ns <;> rfl
  | .arith op l r => by
    rw [Expr.eval?, Expr.eval, Expr.eval?_eq ns l, bind_total]
    cases l.eval ns with
    | error err => rfl
    | ok a =>
      dsimp only
      rw [Expr.eval?_eq ns r, bind_total]
      cases r.eval ns with
      | error err => rfl
      | ok b => exact Value.arith?_eq op a b
  | .compare op l r => by
    rw [Expr.eval?, Expr.eval, Expr.eval?_eq ns l, bind_total]
    cases l.eval ns with
    | error err => rfl
    | ok a =>
      dsimp only
      rw [Expr.eval?_eq ns r, bind_total]
      cases r.eval ns with
      | error err => rfl
      | ok b => exact Value.compare?_eq op a b
  | .and l r => by
    rw [Expr.eval?, Expr.eval, Expr.eval?_eq ns l, bind_total]
    cases l.eval ns with
    | error err => rfl
    | ok a =>
      dsimp only
      rw [Expr.eval?_eq ns r]
      split <;> rfl
  | .or l r => by
    rw [Expr.eval?, Expr.eval, Expr.eval?_eq ns l, bind_total]
    cases l.eval ns with
    | error err => rfl
    | ok a =>
      dsimp only
      rw [Expr.eval?_eq ns r]
      split <;> rfl
  | .call f args => by
    rw [Expr.eval?, Expr.eval, Expr.evalAll?_eq ns args, bind_total]
    cases Expr.evalAll ns args with
    | ok values => exact callFunction?_eq f values
    | error err => rfl

theorem Expr.evalAll?_eq (ns : Namespace) :
    ∀ es : List Expr, Expr.evalAll? ns es = total (Expr.evalAll ns es)
  | [] => by rw [Expr.evalAll?, Expr.evalAll]; rfl
  | e :: es => by
    rw [Expr.evalAll?, Expr.evalAll, Expr.eval?_eq ns e, bind_total]
    cases e.eval ns with
    | error err => rfl
    | ok v =>
      dsimp only
      rw [Expr.evalAll?_eq ns es, bind_total]
      cases Expr.evalAll ns es <;> rfl

end

theorem Action.run?_eq (ns : Namespace) (a : Action) : a.run? ns = total (a.run ns) := by
  cases a with
  | assign x e =>
    rw [Action.run?, Action.run, Expr.eval?_eq, bind_total]
    cases e.eval ns <;> rfl
  | augment x op e =>
    rw [Action.run?, Action.run, bind_total]
    cases Namespace.read ns x with
    | error err => rfl
    | ok a =>
      dsimp only
      rw [Expr.eval?_eq, bind_total]
      cases e.eval ns with
      | error err => rfl
      | ok b =>
        dsimp only
        rw [Value.arith?_eq, bind_total]
        cases a.arith op b <;> rfl
  | delete x =>
    rw [Action.run?, Action.run, bind_total]
    cases Namespace.read ns x <;> rfl
  | eval e =>
    rw [Action.run?, Action.run, Expr.eval?_eq, bind_total]
    cases e.eval ns <;> rfl

theorem Program.run?_eq (ns : Namespace) (p : Program) :
    Program.run? ns p = some (Program.run ns p) := by
  induction p generalizing ns with
  | nil => rfl
  | cons s ss ih =>
    rw [Program.run?, Program.run, Action.run?_eq]
    cases s.action.run ns with
    | ok ns' => exact ih ns'
    | error err => rfl

/-! ## Sources -/

theorem Program.ofText?_eq (source : Text) :
    Program.ofText? source = some (Program.ofText source) := by
  rw [Program.ofText?, Program.ofText, Lexemes.ofText?_eq]
  cases Lexemes.ofText source with
  | ok ls => exact Program.ofLexemes?_eq ls
  | error err => rfl

/-- The execution of every source is defined, whatever the names that it starts with. -/
theorem runSource?_eq (ns : Namespace) (source : Text) :
    runSource? ns source = some (runSource ns source) := by
  rw [runSource?, runSource, Program.ofText?_eq]
  cases Program.ofText source with
  | ok p => exact Program.run?_eq ns p
  | error err => rfl

end CalcDoc.Script
