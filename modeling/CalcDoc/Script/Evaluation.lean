import CalcDoc.Table
import CalcDoc.Script.Builtin
import CalcDoc.Script.Program

/-!
# Running programs

- `Namespace`: the values of the names that blocks have assigned.
- `Expr.eval`: the value of an expression. It reads the namespace and changes nothing.
- `Statement.run`, `Program.run`: the namespace after a statement or a program. A program stops at
  its first failing statement, and what the statements before it did remains.
- `runSource`, `checkSource`: the same for the source of a program, and whether it is one.
-/

namespace CalcDoc.Script

/-- The values of the names that are assigned. -/
abbrev Namespace := Table Value

/-- The value of a name. -/
def Namespace.read (ns : Namespace) (x : String) : Except Error Value :=
  match Table.get? ns x with
  | some v => .ok v
  | none => .error (.undefinedName x)

/-- The value of the function that a name calls. -/
def callFunction (f : String) (args : List Value) : Except Error Value :=
  match Builtin.ofName? f with
  | some b => b.apply args
  | none => .error (.unknownFunction f)

mutual

/-- The value of an expression. Operands are evaluated from left to right; `and` and `or` leave
out their right operand when the left one decides. -/
def Expr.eval (ns : Namespace) : Expr → Except Error Value
  | .literal v => .ok v
  | .name x => Namespace.read ns x
  | .sign op e =>
    match e.eval ns with
    | .ok v => v.sign op
    | .error err => .error err
  | .not e =>
    match e.eval ns with
    | .ok v => .ok (.bool (!v.truthy))
    | .error err => .error err
  | .arith op l r =>
    match l.eval ns with
    | .error err => .error err
    | .ok a =>
      match r.eval ns with
      | .ok b => a.arith op b
      | .error err => .error err
  | .compare op l r =>
    match l.eval ns with
    | .error err => .error err
    | .ok a =>
      match r.eval ns with
      | .ok b => a.compare op b
      | .error err => .error err
  | .and l r =>
    match l.eval ns with
    | .ok a => if a.truthy then r.eval ns else .ok a
    | .error err => .error err
  | .or l r =>
    match l.eval ns with
    | .ok a => if a.truthy then .ok a else r.eval ns
    | .error err => .error err
  | .call f args =>
    match Expr.evalAll ns args with
    | .ok vs => callFunction f vs
    | .error err => .error err

/-- The values of some expressions, from left to right. -/
def Expr.evalAll (ns : Namespace) : List Expr → Except Error (List Value)
  | [] => .ok []
  | e :: es =>
    match e.eval ns with
    | .error err => .error err
    | .ok v =>
      match Expr.evalAll ns es with
      | .ok vs => .ok (v :: vs)
      | .error err => .error err

end

/-- The namespace after an action. An augmented assignment needs the old value before it
evaluates its expression; only a name that has a value can be deleted. -/
def Action.run (ns : Namespace) : Action → Except Error Namespace
  | .assign x e =>
    match e.eval ns with
    | .ok v => .ok (Table.insert ns x v)
    | .error err => .error err
  | .augment x op e =>
    match Namespace.read ns x with
    | .error err => .error err
    | .ok a =>
      match e.eval ns with
      | .error err => .error err
      | .ok b =>
        match a.arith op b with
        | .ok v => .ok (Table.insert ns x v)
        | .error err => .error err
  | .delete x =>
    match Namespace.read ns x with
    | .ok _ => .ok (Table.erase ns x)
    | .error err => .error err
  | .eval e =>
    match e.eval ns with
    | .ok _ => .ok ns
    | .error err => .error err

/-- What a run leaves: the namespace, and the error that stopped it, if any. -/
structure Outcome where
  names : Namespace
  error? : Option Error

/-- The namespace after the statements of a program, up to the first that fails. -/
def Program.run (ns : Namespace) : Program → Outcome
  | [] => ⟨ns, none⟩
  | s :: ss =>
    match s.action.run ns with
    | .ok ns' => Program.run ns' ss
    | .error err => ⟨ns, some err⟩

/-- The namespace after the program of a source; a source that is no program changes nothing. -/
def runSource (ns : Namespace) (source : Text) : Outcome :=
  match Program.ofText source with
  | .ok p => p.run ns
  | .error err => ⟨ns, some err⟩

/-- Why a source is no program, if it is none. -/
def checkSource (source : Text) : Option Error :=
  match Program.ofText source with
  | .ok _ => none
  | .error err => some err

end CalcDoc.Script
